import Houdinny.Route

/-!
# Table numbers

The route manager that is created from a configuration numbers the tables of its routes
from the configured base table on, by the number of routes that are active. Nothing
bounds the numbers: they may come to the tables of the kernel, or wrap.

The number of active routes grows by one at a time. So the numbers are in range
(`Numbered`) in every state of a run exactly if no route is set up where as many are
active as there is room for (`numbered_iff_hasRoom`): up to the tables of the kernel, if
the base table is below them, and up to `2^32` otherwise (`capacity`).

* `createRouteManager` picks the manager of the platform: one that does nothing, or the
  Linux one.
* `Routing` is a manager in a run, with the number of the routes ever set up, which bounds
  the offsets.
* `InRange` is the invariant. A call for which there is room keeps it (`inRange_step`), and
  one for which there is none ends in a state that is not `Numbered`
  (`not_numbered_step`), as its route is given the number just past the room
  (`add_capacity`).

Runs out of range are there for each base table (`not_numbered_replicate`).
-/

namespace Houdinny

open LinuxRouteManager

/-- Route manager configuration. -/
structure RouteConfig where
  /-- Whether route management is enabled. -/
  enabled : Bool
  /-- Base routing table number. -/
  baseTable : UInt32
  deriving DecidableEq

/-- The kernel's table of the traffic that is not tunnelled. -/
def mainTable : UInt32 := 254

/-- The kernel's table of local addresses. -/
def localTable : UInt32 := 255

/-- A route manager. -/
inductive RouteManager
  /-- That of platforms without route isolation. -/
  | noop
  | linux (m : LinuxRouteManager)

namespace RouteManager

/-- Set up routing isolation, if the platform has any. -/
def setupTunnelRoute (m : RouteManager) (interface tunnelId : Text) : RouteManager :=
  match m with
  | noop => noop
  | linux m => linux (m.setupTunnelRoute interface tunnelId)

/-- Remove routing for a tunnel, if the platform has any. -/
def teardownTunnelRoute (m : RouteManager) (tunnelId : Text) : RouteManager :=
  match m with
  | noop => noop
  | linux m => linux (m.teardownTunnelRoute tunnelId)

/-- The active routes. Without a route manager for the platform, there are none. -/
def activeRoutes : RouteManager → List TunnelRoute
  | noop => []
  | linux m => m.activeRoutes

end RouteManager

/-- Create the platform-appropriate route manager. -/
def createRouteManager (isLinux : Bool) (config : RouteConfig) : RouteManager :=
  if !config.enabled then .noop
  else if isLinux then .linux (.withBaseTable config.baseTable)
  else .noop

/-- A route manager, and the number of routes that were ever set up. -/
structure Routing where
  manager : RouteManager
  count : ℕ

/-- What a call does. -/
def Routing.step (s : Routing) : RouteCall → Option Routing
  | .setup interface tunnelId => some ⟨s.manager.setupTunnelRoute interface tunnelId, s.count + 1⟩
  | .teardown tunnelId => some ⟨s.manager.teardownTunnelRoute tunnelId, s.count⟩

/-- The tables are numbered from the base table on, and none of them is a table of the
    kernel, if the base table is below those. A sum that wraps is below the base table. -/
structure Numbered (base : UInt32) (s : Routing) : Prop where
  offset : ∀ r ∈ s.manager.activeRoutes, ∃ table k, r.routingTable = some table ∧
    table.toNat = base.toNat + k ∧ k < s.count
  reserved : base < mainTable → ∀ r ∈ s.manager.activeRoutes,
    r.routingTable ≠ some mainTable ∧ r.routingTable ≠ some localTable

/-- The number of tables from the base table on, up to those of the kernel or to the
    last one. -/
def capacity (base : UInt32) : ℕ :=
  if base < mainTable then mainTable.toNat - base.toNat else 2 ^ 32 - base.toNat

/-- A route is set up only if there is room for one more. -/
def HasRoom (base : UInt32) (s : Routing) : RouteCall → Prop
  | .setup _ _ => s.manager.activeRoutes.length < capacity base
  | .teardown _ => True

variable {base : UInt32} {s s' : Routing} {k : ℕ}

/-! ## Numbers -/

/-- The base table is below those of the kernel. -/
theorem lt_mainTable : base < mainTable ↔ base.toNat < 254 := UInt32.lt_iff_toNat_lt

/-- The numbers for which there is room do not wrap. -/
theorem capacity_le (base : UInt32) : base.toNat + capacity base ≤ 2 ^ 32 := by
  have hbase : base.toNat < 2 ^ 32 := base.toNat_lt
  rw [capacity]
  split_ifs with hmain
  · have hlt := lt_mainTable.1 hmain
    change base.toNat + (254 - base.toNat) ≤ 2 ^ 32
    omega
  · omega

/-- There is room for a route at least. -/
theorem capacity_pos (base : UInt32) : 0 < capacity base := by
  have hbase : base.toNat < 2 ^ 32 := base.toNat_lt
  rw [capacity]
  split_ifs with hmain
  · exact Nat.sub_pos_of_lt (lt_mainTable.1 hmain)
  · exact Nat.sub_pos_of_lt hbase

/-- An offset for which there is room is added without a wrap. -/
theorem toNat_add_ofNat (h : k < capacity base) :
    (base + UInt32.ofNat k).toNat = base.toNat + k := by
  have hle := capacity_le base
  rw [UInt32.toNat_add, UInt32.toNat_ofNat', Nat.mod_eq_of_lt (a := k) (by omega),
    Nat.mod_eq_of_lt (by omega)]

/-- The first number for which there is no room is that of the main table, or zero. -/
theorem add_capacity (base : UInt32) :
    base + UInt32.ofNat (capacity base) = if base < mainTable then mainTable else 0 := by
  have hbase : base.toNat < 2 ^ 32 := base.toNat_lt
  rw [← UInt32.toNat_inj, UInt32.toNat_add, UInt32.toNat_ofNat', Nat.add_mod_mod, capacity]
  split_ifs with hmain
  · have hlt := lt_mainTable.1 hmain
    change (base.toNat + (254 - base.toNat)) % 2 ^ 32 = 254
    omega
  · rw [Nat.add_sub_cancel' hbase.le, Nat.mod_self]
    rfl

/-! ## The invariant -/

/-- The numbers are in range, and so is the number of active routes. -/
structure InRange (base : UInt32) (s : Routing) : Prop where
  baseTable : ∀ m, s.manager = .linux m → m.baseTable = base
  table : ∀ r ∈ s.manager.activeRoutes, ∃ k < s.count, k < capacity base ∧
    r.routingTable = some (base + UInt32.ofNat k)
  le_count : s.manager.activeRoutes.length ≤ s.count
  le_capacity : s.manager.activeRoutes.length ≤ capacity base

/-- The numbers are as they should be, where they are in range. -/
theorem InRange.numbered (h : InRange base s) : Numbered base s := by
  constructor
  · intro r hr
    obtain ⟨k, hk, hcapacity, htable⟩ := h.table r hr
    exact ⟨_, k, htable, toNat_add_ofNat hcapacity, hk⟩
  · intro hmain r hr
    obtain ⟨k, -, hcapacity, htable⟩ := h.table r hr
    have hlt : (base + UInt32.ofNat k).toNat < 254 := by
      rw [toNat_add_ofNat hcapacity]
      rw [capacity, if_pos hmain] at hcapacity
      change k < 254 - base.toNat at hcapacity
      omega
    have hne : ∀ t : UInt32, 254 ≤ t.toNat → r.routingTable ≠ some t := by
      intro t ht heq
      rw [Option.some.inj (htable.symm.trans heq)] at hlt
      omega
    -- Both tables of the kernel are past the numbers for which there is room.
    exact ⟨hne mainTable (by decide), hne localTable (by decide)⟩

/-- A manager that is created has no routes. -/
theorem inRange_create (isLinux : Bool) (config : RouteConfig) :
    InRange config.baseTable ⟨createRouteManager isLinux config, 0⟩ := by
  have hroutes : (createRouteManager isLinux config).activeRoutes = [] := by
    rw [createRouteManager]
    split_ifs <;> rfl
  refine ⟨fun m hm => ?_, fun r hr => ?_, ?_, ?_⟩
  · rw [createRouteManager] at hm
    split_ifs at hm
    rw [← RouteManager.linux.inj hm]
    rfl
  · rw [hroutes] at hr
    exact absurd hr List.not_mem_nil
  · rw [hroutes]
    exact Nat.zero_le _
  · rw [hroutes]
    exact Nat.zero_le _

/-- A route that is set up has the number of the routes that were active. -/
theorem activeRoutes_setup {m : LinuxRouteManager} (hbase : m.baseTable = base)
    (interface tunnelId : Text) : ((RouteManager.linux m).setupTunnelRoute interface
      tunnelId).activeRoutes = m.activeRoutes ++
        [⟨tunnelId, interface, some (base + UInt32.ofNat m.activeRoutes.length), none⟩] := by
  rw [← hbase]
  rfl

/-- A route that is set up where there is room for it is in range. -/
theorem InRange.setup (h : InRange base s) {interface tunnelId : Text}
    (hroom : HasRoom base s (.setup interface tunnelId)) :
    InRange base ⟨s.manager.setupTunnelRoute interface tunnelId, s.count + 1⟩ := by
  obtain ⟨manager, count⟩ := s
  cases manager with
  | noop =>
    exact ⟨fun m hm => absurd hm (by simp [RouteManager.setupTunnelRoute]),
      fun r hr => absurd hr List.not_mem_nil, Nat.zero_le _, Nat.zero_le _⟩
  | linux m =>
    have hroutes := activeRoutes_setup (h.baseTable m rfl) interface tunnelId
    have hlength := congrArg List.length hroutes
    rw [List.length_append, List.length_singleton] at hlength
    refine ⟨fun m' hm' => ?_, fun r hr => ?_, ?_, ?_⟩
    · rw [← RouteManager.linux.inj hm']
      exact h.baseTable m rfl
    · rw [hroutes] at hr
      -- The table of the new route is that of the number of routes so far.
      rcases List.mem_append.1 hr with hr | hr
      · obtain ⟨k, hk, htable⟩ := h.table r hr
        exact ⟨k, Nat.lt_succ_of_lt hk, htable⟩
      · rw [List.mem_singleton.1 hr]
        exact ⟨_, Nat.lt_succ_of_le h.le_count, hroom, rfl⟩
    · rw [hlength]
      exact Nat.succ_le_succ h.le_count
    · rw [hlength]
      exact hroom

/-- Routes that stay are still in range. -/
theorem InRange.teardown (h : InRange base s) (tunnelId : Text) :
    InRange base ⟨s.manager.teardownTunnelRoute tunnelId, s.count⟩ := by
  have hsub : (s.manager.teardownTunnelRoute tunnelId).activeRoutes.Sublist
      s.manager.activeRoutes := by
    cases s.manager with
    | noop => exact List.Sublist.refl _
    | linux m => exact List.filter_sublist
  refine ⟨fun m hm => ?_, fun r hr => h.table r (hsub.subset hr),
    hsub.length_le.trans h.le_count, hsub.length_le.trans h.le_capacity⟩
  rcases hmanager : s.manager with _ | m₀
  · rw [hmanager] at hm
    exact absurd hm (by simp [RouteManager.teardownTunnelRoute])
  · rw [hmanager] at hm
    rw [← RouteManager.linux.inj hm]
    exact h.baseTable m₀ hmanager

/-- A route for which there is no room gets the number of the main table, or a number that
    has wrapped. -/
theorem InRange.not_numbered (h : InRange base s) {interface tunnelId : Text}
    (hroom : ¬HasRoom base s (.setup interface tunnelId)) :
    ¬Numbered base ⟨s.manager.setupTunnelRoute interface tunnelId, s.count + 1⟩ := by
  intro hnumbered
  -- Exactly as many routes are active as there is room for, so the new one is the first too
  -- many.
  have hfull : s.manager.activeRoutes.length = capacity base :=
    le_antisymm h.le_capacity (Nat.le_of_not_lt hroom)
  obtain ⟨manager, count⟩ := s
  cases manager with
  | noop => exact (capacity_pos base).ne hfull
  | linux m =>
    have hlast : m.activeRoutes.length = capacity base := hfull
    have hroutes := activeRoutes_setup (h.baseTable m rfl) interface tunnelId
    rw [hlast, add_capacity] at hroutes
    have hmem : (⟨tunnelId, interface, some (if base < mainTable then mainTable else 0), none⟩ :
        TunnelRoute) ∈ ((RouteManager.linux m).setupTunnelRoute interface tunnelId).activeRoutes :=
      hroutes ▸ List.mem_append_right _ (List.mem_singleton_self _)
    by_cases hmain : base < mainTable
    · -- Below the tables of the kernel, the number is the one of the main table; above them it
      -- has wrapped to zero, which is no offset from the base table.
      exact (hnumbered.reserved hmain _ hmem).1 (by rw [if_pos hmain])
    · obtain ⟨table, k, htable, hoffset, -⟩ := hnumbered.offset _ hmem
      rw [if_neg hmain] at htable
      have hzero : base.toNat + k = 0 := by
        rw [← hoffset, ← Option.some.inj htable]
        rfl
      exact hmain (lt_mainTable.2 (by omega))

/-- A call for which there is room keeps the numbers in range. -/
theorem inRange_step {c : RouteCall} (h : InRange base s) (hstep : s.step c = some s')
    (hroom : HasRoom base s c) : InRange base s' := by
  cases c with
  | setup interface tunnelId => exact Option.some.inj hstep ▸ h.setup hroom
  | teardown tunnelId => exact Option.some.inj hstep ▸ h.teardown tunnelId

/-- A call for which there is no room does not. -/
theorem not_numbered_step {c : RouteCall} (h : InRange base s) (hstep : s.step c = some s')
    (hroom : ¬HasRoom base s c) : ¬Numbered base s' := by
  cases c with
  | setup interface tunnelId => exact Option.some.inj hstep ▸ h.not_numbered hroom
  | teardown tunnelId => exact absurd trivial hroom

/-- Over any run of calls, the tables are numbered from the base table on in every state,
    without wrapping and apart from those of the kernel, exactly if every route is set up
    where there is room for it. -/
theorem numbered_iff_hasRoom (isLinux : Bool) (config : RouteConfig) (calls : List RouteCall) :
    Run.Always Routing.step (Numbered config.baseTable) ⟨createRouteManager isLinux config, 0⟩
        calls ↔
      Run.EachStep Routing.step (HasRoom config.baseTable) ⟨createRouteManager isLinux config, 0⟩
        calls :=
  Run.always_iff_eachStep (InRange config.baseTable) (fun _ h => h.numbered)
    (fun _ _ _ h hstep hroom => inRange_step h hstep hroom)
    (fun _ _ _ h hstep hroom => not_numbered_step h hstep hroom) (inRange_create isLinux config)

/-! ## Full managers -/

/-- As many routes as there is room for can be set up one after the other. -/
theorem run_setups {m : LinuxRouteManager} {count : ℕ} (h : InRange base ⟨.linux m, count⟩)
    (interface tunnelId : Text) {n : ℕ} (hn : m.activeRoutes.length + n ≤ capacity base) :
    ∃ s, Run.run Routing.step ⟨.linux m, count⟩ (List.replicate n (.setup interface tunnelId)) =
        some s ∧ InRange base s ∧ s.manager.activeRoutes.length = m.activeRoutes.length + n := by
  induction n generalizing m count with
  | zero => exact ⟨_, rfl, h, rfl⟩
  | succ n ih =>
    have hroom : HasRoom base ⟨.linux m, count⟩ (.setup interface tunnelId) :=
      Nat.lt_of_lt_of_le (Nat.lt_add_of_pos_right n.succ_pos) hn
    have hlength : (m.setupTunnelRoute interface tunnelId).activeRoutes.length =
        m.activeRoutes.length + 1 := List.length_append
    obtain ⟨s, hrun, hrange, hactive⟩ := ih (h.setup hroom) (by omega)
    exact ⟨s, hrun, hrange, by omega⟩

/-- Whatever the base table, one route more than there is room for is out of range. -/
theorem not_numbered_replicate (base : UInt32) (interface tunnelId : Text) :
    ¬Run.Always Routing.step (Numbered base) ⟨.linux (.withBaseTable base), 0⟩
      (List.replicate (capacity base + 1) (.setup interface tunnelId)) := by
  intro halways
  have hstart : InRange base ⟨.linux (.withBaseTable base), 0⟩ := inRange_create true ⟨true, base⟩
  obtain ⟨s, hrun, hrange, hactive⟩ := run_setups hstart interface tunnelId
    (Nat.zero_add (capacity base)).le
  have hfull : s.manager.activeRoutes.length = capacity base :=
    hactive.trans (Nat.zero_add (capacity base))
  have hrun' : Run.run Routing.step ⟨.linux (.withBaseTable base), 0⟩
      (List.replicate (capacity base + 1) (.setup interface tunnelId)) =
        s.step (.setup interface tunnelId) := by
    rw [List.replicate_succ', Run.run_concat, hrun, Option.bind_some]
  exact hrange.not_numbered hfull.not_lt (halways.last hrun')

/-- With the default base table, 155 tunnels are too many: the last of them gets the table 254
    of the kernel. -/
theorem not_numbered_default : ¬∀ (isLinux : Bool) (config : RouteConfig)
    (calls : List RouteCall), Run.Always Routing.step (Numbered config.baseTable)
      ⟨createRouteManager isLinux config, 0⟩ calls := fun h =>
  not_numbered_replicate defaultBaseTable "wg0".toList "tunnel-a".toList
    (h true ⟨true, defaultBaseTable⟩ (List.replicate 155 (.setup "wg0".toList "tunnel-a".toList)))

end Houdinny
