import Mathlib.Data.Nat.ModEq
import Houdinny.Lib.Run
import Houdinny.Lib.Text

/-!
# Routing tables

The Linux route manager keeps the list of the active tunnel routes, and gives a
new route the table `base_table + offset`, the offset being the number of routes
active at the time (`LinuxRouteManager.setupTunnelRoute`). The numbers are those
of a release build: casts and additions wrap at `2^32`. As a panic aborts such a
build, its lock is never poisoned, and both calls return `Ok`.

Whether the tables of the active routes are pairwise different over a run of
calls is decided by the calls alone. The slots (`Slots`) record, for every active
route, how many routes were active when it was set up: the tables stay different
exactly as long as no route is set up when as many routes are active as when a
route still active was set up (`tablesDistinct_iff_freshSlots`).

* `LinuxRouteManager` is the manager, with the two calls that change it, and `routeStep` a
  call on it.
* `Slots.step` is what a call does to the slots. They are an abstraction of the routes
  (`Slots.Of`) that every call keeps (`Of.step`), and that knows no base table.
* `Slots.Fresh` is the condition on a call, given the slots before it.

The manager that is created from a configuration, and the range of its numbers, are in
`Route.Numbers`.
-/

namespace Houdinny

/-- An active tunnel's routing state. -/
structure TunnelRoute where
  tunnelId : Text
  interface : Text
  /-- Linux routing table number. -/
  routingTable : Option UInt32
  /-- Linux network namespace name. -/
  netNamespace : Option Text
  deriving DecidableEq

/-- Policy-based route manager for Linux. -/
structure LinuxRouteManager where
  baseTable : UInt32
  routes : List TunnelRoute

namespace LinuxRouteManager

/-- The first routing table, unless the configuration says otherwise. -/
def defaultBaseTable : UInt32 := 100

/-- A manager with no active routes, that numbers from the given table on. -/
def withBaseTable (baseTable : UInt32) : LinuxRouteManager := ⟨baseTable, []⟩

/-- A manager that numbers from the default table on. -/
def new : LinuxRouteManager := withBaseTable defaultBaseTable

/-- The routing table number for the tunnel number `offset`. -/
def tableForOffset (m : LinuxRouteManager) (offset : UInt32) : UInt32 := m.baseTable + offset

/-- Set up routing isolation for a tunnel interface. -/
def setupTunnelRoute (m : LinuxRouteManager) (interface tunnelId : Text) : LinuxRouteManager :=
  let offset := UInt32.ofNat m.routes.length
  let table := m.tableForOffset offset
  { m with routes := m.routes ++ [⟨tunnelId, interface, some table, none⟩] }

/-- Remove routing for a tunnel. -/
def teardownTunnelRoute (m : LinuxRouteManager) (tunnelId : Text) : LinuxRouteManager :=
  { m with routes := m.routes.filter (·.tunnelId ≠ tunnelId) }

/-- A snapshot of the active routes. -/
def activeRoutes (m : LinuxRouteManager) : List TunnelRoute := m.routes

/-- Any two of the active routes have different tables. -/
def TablesDistinct (m : LinuxRouteManager) : Prop :=
  m.activeRoutes.Pairwise fun r r' => r.routingTable ≠ r'.routingTable

instance (m : LinuxRouteManager) : Decidable m.TablesDistinct :=
  inferInstanceAs (Decidable (List.Pairwise _ _))

end LinuxRouteManager

/-- A call on a route manager. -/
inductive RouteCall
  | setup (interface tunnelId : Text)
  | teardown (tunnelId : Text)
  deriving DecidableEq

/-- The ids that the calls set up. -/
def setupIds (calls : List RouteCall) : List Text := calls.filterMap fun
  | .setup _ tunnelId => some tunnelId
  | .teardown _ => none

open LinuxRouteManager in
/-- What a call does to a route manager. -/
def routeStep (m : LinuxRouteManager) : RouteCall → Option LinuxRouteManager
  | .setup interface tunnelId => some (m.setupTunnelRoute interface tunnelId)
  | .teardown tunnelId => some (m.teardownTunnelRoute tunnelId)

/-! ## Slots -/

/-- The active tunnels, each with the number of tunnels that were active when it
    was set up. -/
abbrev Slots := List (Text × ℕ)

namespace Slots

/-- What a call does to the slots. -/
def step (s : Slots) : RouteCall → Option Slots
  | .setup _ tunnelId => some (s ++ [(tunnelId, s.length)])
  | .teardown tunnelId => some (s.filter (·.1 ≠ tunnelId))

/-- A setup comes when as many tunnels are active (modulo `2^32`) as never before
    when a tunnel still active was set up. -/
def Fresh (s : Slots) : RouteCall → Prop
  | .setup _ _ => ∀ p ∈ s, ¬p.2 ≡ s.length [MOD 2 ^ 32]
  | .teardown _ => True

/-- The routes of a manager with the base table `base` have these slots. -/
def Of (base : UInt32) (m : LinuxRouteManager) (s : Slots) : Prop :=
  m.baseTable = base ∧
    m.routes.map (fun r => (r.tunnelId, r.routingTable)) =
      s.map fun p => (p.1, some (base + UInt32.ofNat p.2))

/-- Counters of 32 bits tell numbers apart up to `2^32`. -/
theorem ofNat_eq_ofNat_iff {a b : ℕ} : UInt32.ofNat a = UInt32.ofNat b ↔ a ≡ b [MOD 2 ^ 32] := by
  rw [← UInt32.toNat_inj, UInt32.toNat_ofNat', UInt32.toNat_ofNat']
  rfl

/-- The tables differ exactly if the slots do. -/
theorem Of.tablesDistinct_iff {base : UInt32} {m : LinuxRouteManager} {s : Slots}
    (h : Of base m s) :
    m.TablesDistinct ↔ s.Pairwise fun p p' => ¬p.2 ≡ p'.2 [MOD 2 ^ 32] := by
  -- Both sides are about the pairs of ids and tables, which the slots determine.
  have hm : m.TablesDistinct ↔
      (m.routes.map fun r => (r.tunnelId, r.routingTable)).Pairwise fun a b => a.2 ≠ b.2 := by
    rw [List.pairwise_map]
    rfl
  rw [hm, h.2, List.pairwise_map]
  simp only [ne_eq, Option.some.injEq, UInt32.add_right_inj, ofNat_eq_ofNat_iff]

/-- A call does to the routes what it does to their slots. -/
theorem Of.step {base : UInt32} {m m' : LinuxRouteManager} {s s' : Slots} {c : RouteCall}
    (h : Of base m s) (hm : routeStep m c = some m') (hs : s.step c = some s') : Of base m' s' := by
  obtain ⟨hbase, hmap⟩ := h
  have hlen : m.routes.length = s.length := by simpa using congrArg List.length hmap
  cases c with
  | setup interface tunnelId =>
    obtain rfl := Option.some.inj hm
    obtain rfl := Option.some.inj hs
    refine ⟨hbase, ?_⟩
    simp only [LinuxRouteManager.setupTunnelRoute, LinuxRouteManager.tableForOffset,
      List.map_append, hmap, hbase, hlen, List.map_cons, List.map_nil]
  | teardown tunnelId =>
    obtain rfl := Option.some.inj hm
    obtain rfl := Option.some.inj hs
    refine ⟨hbase, ?_⟩
    -- The routes that stay are decided by their ids, which the slots have too.
    have := congrArg (List.filter fun a : Text × Option UInt32 => decide (a.1 ≠ tunnelId)) hmap
    rw [List.filter_map, List.filter_map] at this
    exact this

/-- A setup keeps the slots different exactly if its slot is fresh. -/
theorem pairwise_step {s s' : Slots} {c : RouteCall}
    (h : s.Pairwise fun p p' => ¬p.2 ≡ p'.2 [MOD 2 ^ 32]) (hs : s.step c = some s') :
    (s'.Pairwise fun p p' => ¬p.2 ≡ p'.2 [MOD 2 ^ 32]) ↔ s.Fresh c := by
  cases c with
  | setup interface tunnelId =>
    obtain rfl := Option.some.inj hs
    rw [List.pairwise_append]
    -- The slots before are different by `h`: what counts is how they relate to
    -- the new one.
    constructor
    · exact fun hp q hq => hp.2.2 q hq _ (List.mem_singleton_self _)
    · refine fun hF => ⟨h, List.pairwise_singleton _ _, fun q hq q' hq' => ?_⟩
      obtain rfl := List.mem_singleton.1 hq'
      exact hF q hq
  | teardown tunnelId =>
    obtain rfl := Option.some.inj hs
    exact ⟨fun _ => trivial, fun _ => h.filter _⟩

end Slots

/-- Over any run of calls, the active routes have pairwise different tables in every state,
    exactly if every setup comes at a fresh slot. The slots are those of the calls alone, so the
    base table does not matter, nor what the identifiers and interfaces are. -/
theorem tablesDistinct_iff_freshSlots (base : UInt32) (calls : List RouteCall) :
    Run.Always routeStep LinuxRouteManager.TablesDistinct (.withBaseTable base) calls ↔
      Run.EachStep Slots.step Slots.Fresh [] calls := by
  have h : Run.Watched routeStep Slots.step
      (fun m s => Slots.Of base m s ∧ s.Pairwise fun p p' => ¬p.2 ≡ p'.2 [MOD 2 ^ 32])
      LinuxRouteManager.TablesDistinct Slots.Fresh :=
    { safe := fun _ _ hR => hR.1.tablesDistinct_iff.2 hR.2
      follow := fun _ s c _ _ _ => by cases c <;> exact ⟨_, rfl⟩
      lead := fun m _ c _ _ _ => by cases c <;> exact ⟨_, rfl⟩
      keep := fun _ _ _ _ _ hR hm hs hG =>
        ⟨hR.1.step hm hs, (Slots.pairwise_step hR.2 hs).2 hG⟩
      fail := fun _ _ _ _ _ hR hm hs hG hP =>
        hG ((Slots.pairwise_step hR.2 hs).1 ((hR.1.step hm hs).tablesDistinct_iff.1 hP)) }
  exact h.always_iff ⟨⟨rfl, rfl⟩, List.Pairwise.nil⟩

/-- Two tunnels are set up, the first is torn down, and a third is set up. -/
def setupAfterTeardown : List RouteCall :=
  [.setup "wg0".toList "tunnel-a".toList, .setup "wg1".toList "tunnel-b".toList,
    .teardown "tunnel-a".toList, .setup "wg2".toList "tunnel-c".toList]

/-- The third tunnel gets the table of the second, although the ids differ. -/
theorem not_tablesDistinct_setupAfterTeardown : (setupIds setupAfterTeardown).Nodup ∧
    ¬Run.Always routeStep LinuxRouteManager.TablesDistinct .new setupAfterTeardown :=
  ⟨by decide, fun h => absurd (h.last rfl) (by decide)⟩

end Houdinny
