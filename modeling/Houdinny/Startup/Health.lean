import Houdinny.Startup

/-!
# Health after startup

The transports that `serve` puts into the pool are as `new` makes them: nobody
provisions them. So those of the protocols that need provisioning, WireGuard and
Sentinel, are not healthy, and the first pick finds a transport exactly if a
usable tunnel is of another protocol (`pick_isOk_iff_startsHealthy`). A list of
WireGuard tunnels passes the check for usable transports all the same
(`not_routable_wireguard`).

That a tunnel starts healthy is a condition on the configuration (`StartsHealthy`), and so is
the theorem: the health of what is built is decided by the protocol (`Built.healthy_iff`), and
a router finds a transport exactly if one is healthy (`Router.pick_isOk_iff`), whatever its
strategy.
-/

namespace Houdinny

/-- The tunnel is usable, and of a protocol that needs no provisioning. -/
def TunnelConfig.StartsHealthy (f : Features) (torClient : Except Text Unit) (t : TunnelConfig) :
    Prop :=
  t.usable f torClient = true ∧ t.protocol ≠ "wireguard".toList ∧ t.protocol ≠ "sentinel".toList

/-! ## Transports -/

variable {f : Features} {torClient : Except Text Unit} {t : TunnelConfig} {x : Transport}

/-- The health of what is built is decided by the protocol. -/
theorem Built.healthy_iff (h : Built f torClient t x) : x.healthy = true ↔
    t.protocol ≠ "wireguard".toList ∧ t.protocol ≠ "sentinel".toList := by
  cases h with
  | socks5 hp | httpBare hp | tor hp => rw [hp]; exact iff_of_true rfl (by decide)
  | httpUrl hp _ _ hok =>
    rw [hp, (HttpProxyTransport.eq_new_of_fromUrl hok).1]
    exact iff_of_true rfl (by decide)
  | wireguard hp | sentinel hp => rw [hp]; exact iff_of_false (by simp [Transport.healthy,
      WireGuardTransport.new, SentinelTransport.new]) (by decide)

/-- A tunnel starts healthy exactly if one of its transports does. -/
theorem exists_healthy_iff_startsHealthy :
    (∃ x ∈ t.buildTransport f torClient, x.healthy = true) ↔ t.StartsHealthy f torClient := by
  constructor
  · rintro ⟨x, hx, hhealthy⟩
    have hbuilt := TunnelConfig.mem_buildTransport.1 hx
    exact ⟨TunnelConfig.usable_of_built hbuilt, hbuilt.healthy_iff.1 hhealthy⟩
  · rintro ⟨husable, hp⟩
    obtain ⟨x, hbuilt, _⟩ := TunnelConfig.exists_built husable
    exact ⟨x, TunnelConfig.mem_buildTransport.2 hbuilt, hbuilt.healthy_iff.2 hp⟩

/-! ## Picking -/

/-- A pick succeeds exactly if a transport is healthy. -/
theorem Router.pick_isOk_iff {w : ℕ} {α : Type} {healthy : α → Bool} (r : Router w) (draw : ℕ)
    (ts : List α) : (r.pick healthy draw ts).1.isOk = true ↔ ∃ t ∈ ts, healthy t = true := by
  have hmem : (∃ t ∈ ts, healthy t = true) ↔ healthyTransports healthy ts ≠ [] := by
    simp [healthyTransports]
  rw [hmem]
  by_cases hnil : healthyTransports healthy ts = []
  · rcases r <;> simp [pick, hnil, Except.isOk, Except.toBool]
  · have hindex (i : ℕ) : i % (healthyTransports healthy ts).length <
        (healthyTransports healthy ts).length := Nat.mod_lt i (List.length_pos_iff.2 hnil)
    cases r with
    | random =>
      simp [pick, hnil, List.getElem?_eq_getElem (hindex draw), Except.isOk, Except.toBool]
    | roundRobin c =>
      simp [pick, hnil, List.getElem?_eq_getElem (hindex c.toNat), Except.isOk, Except.toBool]

/-- After startup, the first pick returns a transport exactly if some tunnel starts healthy: it
    is usable, and of a protocol that needs no provisioning. The condition is on the
    configuration, the features and the Tor client. -/
theorem pick_isOk_iff_startsHealthy {w : ℕ} (f : Features) (torClient : ℕ → Except Text Unit)
    (config : Config) (picker : Picker w) (draw : ℕ)
    (hserve : serve w f torClient config = .ok picker) :
    (picker.pick draw).isOk = true ↔
      ∃ p ∈ config.tunnel.zipIdx, p.1.StartsHealthy f (torClient p.2) := by
  obtain rfl : (⟨.new (buildTransports f torClient config.tunnel),
      config.proxy.strategy.buildRouter w⟩ : Picker w) = picker := by
    simp only [serve] at hserve
    split_ifs at hserve
    exact Except.ok.inj hserve
  -- The pool filters by health, and the router does so again.
  have hfilter : (∃ x ∈ (buildTransports f torClient config.tunnel).filter Transport.healthy,
      x.healthy = true) ↔ ∃ p ∈ config.tunnel.zipIdx, ∃ x ∈ p.1.buildTransport f (torClient p.2),
        x.healthy = true := by
    simp only [buildTransports, List.mem_filter, List.mem_flatMap]
    constructor
    · rintro ⟨x, ⟨⟨p, hp, hx⟩, h⟩, _⟩
      exact ⟨p, hp, x, hx, h⟩
    · rintro ⟨p, hp, x, hx, h⟩
      exact ⟨x, ⟨⟨p, hp, hx⟩, h⟩, h⟩
  simp only [Picker.pick, Pool.healthyTransportsSync, Pool.new, Router.pick_isOk_iff]
  exact hfilter.trans (exists_congr fun p => and_congr_right fun _ =>
    exists_healthy_iff_startsHealthy)

/-! ## WireGuard only -/

/-- A WireGuard tunnel through the interface `wg0`. -/
def wireguardTunnel : TunnelConfig :=
  { TunnelConfig.ofProtocol "wireguard".toList with
    label := some "office".toList
    interface := some "wg0".toList }

/-- A proxy with a SOCKS5 tunnel can route. -/
theorem pick_isOk_socks5 : ∃ picker : Picker 64,
    serve 64 allFeatures (fun _ => .ok ()) (.fromTunnelUrls ["socks5://127.0.0.1:1080".toList]) =
      .ok picker ∧ (picker.pick 0).isOk = true := by
  refine ⟨_, rfl, (pick_isOk_iff_startsHealthy allFeatures (fun _ => .ok ())
    (.fromTunnelUrls ["socks5://127.0.0.1:1080".toList]) _ 0 rfl).2 ?_⟩
  exact ⟨(Config.tunnelOfUrl "socks5://127.0.0.1:1080".toList 0, 0), List.mem_singleton_self _,
    rfl, by decide, by decide⟩

/-- A proxy with a WireGuard tunnel only starts, and cannot. -/
theorem not_routable_wireguard : ¬∀ (f : Features) (torClient : ℕ → Except Text Unit)
    (config : Config) (picker : Picker 64) (draw : ℕ),
    serve 64 f torClient config = .ok picker → (picker.pick draw).isOk = true := by
  intro h
  have := h allFeatures (fun _ => .ok ()) ⟨default, default, [wireguardTunnel]⟩ _ 0 rfl
  exact absurd this (by decide)

end Houdinny
