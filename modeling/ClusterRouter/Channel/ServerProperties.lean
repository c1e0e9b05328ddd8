import ClusterRouter.Channel.Server
import ClusterRouter.Foundation.Fallible

/-! A server that was built has the posture, the token and the authenticators its configuration
names, and one that serves on a socket was allowed to. -/

set_option autoImplicit false

namespace ClusterRouter.Channel

open Foundation

/-! ## Construction -/

variable {fold : CaseFolding} {secrets : SecretDialogue} {asked after : List Bytes} {cfg : Config}
  {s : Server}

theorem resolveToken_ne_nil {ref envName filePath token : Bytes}
    (resolved : resolveToken secrets ref envName filePath asked = .ok (token, after)) :
    token ≠ [] := by
  obtain ⟨value, _, _, checked⟩ := stateful_bind_eq_ok.mp resolved
  obtain ⟨checked, -⟩ := stateful_lift_eq_ok.mp checked
  unfold checkToken at checked
  split at checked
  · cases checked
  next nonblank =>
    cases checked
    exact nonblank

theorem gatewayToken_eq_ok {connToken token : Bytes}
    (resolved : gatewayToken cfg secrets connToken asked = .ok (token, after)) :
    (cfg.gatewayAuth.hasToken = true ∧
      resolveToken secrets cfg.gatewayAuth.tokenRef cfg.gatewayAuth.tokenEnv
        cfg.gatewayAuth.tokenFile asked = .ok (token, after)) ∨
    (cfg.gatewayAuth.hasToken = false ∧ token = []) := by
  unfold gatewayToken at resolved
  dsimp only at resolved
  split at resolved
  next named =>
    split at resolved
    · cases resolved
    next found known =>
      split at resolved
      · cases resolved
      · cases resolved
        exact .inl ⟨named, known⟩
  next unnamed =>
    cases resolved
    exact .inr ⟨Bool.eq_false_iff.mpr unnamed, rfl⟩

theorem newAuthenticatorFor_cases {r : Route} {auth : Authenticator}
    (built : newAuthenticatorFor r secrets asked = .ok (auth, after)) :
    (r.auth = .passthrough ∧ auth = .passthrough) ∨
    (r.auth = .inject ∧ ∃ key, auth = .bearerInjector key) ∨
    (r.auth = .header ∧
      ∃ key, auth = .leasedInjector key (credentialHeader r) (credentialPrefix r) .header) ∨
    (r.auth ≠ .passthrough ∧ ∃ keys,
      auth = .rotatingInjector keys r.auth (credentialHeader r) (credentialPrefix r)) := by
  unfold newAuthenticatorFor at built
  split at built
  next mode =>
    cases built
    exact .inl ⟨mode, rfl⟩
  next held =>
    split at built
    · obtain ⟨keys, _, _, built⟩ := stateful_bind_eq_ok.mp built
      cases built
      exact .inr (.inr (.inr ⟨held, keys, rfl⟩))
    · obtain ⟨key, _, _, built⟩ := stateful_bind_eq_ok.mp built
      obtain ⟨built, -⟩ := stateful_lift_eq_ok.mp built
      unfold singleInjector at built
      split at built
      · cases built
      · split at built
        next mode =>
          cases built
          exact .inr (.inl ⟨mode, key, rfl⟩)
        next other =>
          cases built
          have mode : r.auth = .header := by
            cases mode : r.auth with
            | inject => exact absurd mode other
            | header => rfl
            | passthrough => exact absurd mode held
          exact .inr (.inr (.inl ⟨mode, key, rfl⟩))

private theorem bindRoute_eq_ok {r : Route} {rt : BoundRoute}
    (bound : bindRoute secrets r asked = .ok (rt, after)) :
    rt.route = r ∧ newAuthenticatorFor r secrets asked = .ok (rt.auth, after) := by
  unfold bindRoute at bound
  split at bound
  next auth _ built =>
    cases bound
    exact ⟨rfl, built⟩
  next => cases bound

/-- The routes are bound one by one, each after what was asked for the ones before it. -/
theorem newServer_eq_ok (built : newServer fold cfg secrets asked = .ok (s, after)) :
    s.proxyAuth = cfg.gatewayAuth.mode ∧
      (∃ before, gatewayToken cfg secrets s.connToken before = .ok (s.proxyToken, after)) ∧
      ∃ bound, s.routes = sortRoutes bound ∧ List.Forall₂ (fun r rt => rt.route = r ∧
          ∃ here there, newAuthenticatorFor r secrets here = .ok (rt.auth, there))
        (cfg.routes.filter (fun r => r.enabled)) bound := by
  obtain ⟨bound, between, all, built⟩ := stateful_bind_eq_ok.mp built
  obtain ⟨connToken, before, _, built⟩ := stateful_bind_eq_ok.mp built
  obtain ⟨proxyToken, _, gateway, built⟩ := stateful_bind_eq_ok.mp built
  cases built
  refine ⟨rfl, ⟨before, gateway⟩, bound, rfl, (forall₂_of_stateful_mapM all).imp ?_⟩
  rintro r rt ⟨here, there, known⟩
  obtain ⟨same, auth⟩ := bindRoute_eq_ok known
  exact ⟨same, here, there, auth⟩

theorem newServer_routes (built : newServer fold cfg secrets asked = .ok (s, after))
    {rt : BoundRoute} (member : rt ∈ s.routes) :
    rt.route ∈ cfg.routes.filter (fun r => r.enabled) ∧
      ∃ here there, newAuthenticatorFor rt.route secrets here = .ok (rt.auth, there) := by
  obtain ⟨bound, sorted, each⟩ := (newServer_eq_ok built).2.2
  rw [sorted] at member
  have among : rt ∈ bound := (List.mergeSort_perm _ _).mem_iff.mp member
  obtain ⟨n, inside, rfl⟩ := List.getElem_of_mem among
  obtain ⟨same, auth⟩ := (List.forall₂_iff_get.mp each).2 n
    ((List.forall₂_iff_get.mp each).1 ▸ inside) inside
  exact ⟨same ▸ List.getElem_mem _, same ▸ auth⟩

theorem newServer_route_perm (built : newServer fold cfg secrets asked = .ok (s, after)) :
    (s.routes.map BoundRoute.route).Perm (cfg.routes.filter (fun r => r.enabled)) := by
  obtain ⟨bound, sorted, each⟩ := (newServer_eq_ok built).2.2
  have same : bound.map BoundRoute.route = cfg.routes.filter (fun r => r.enabled) := by
    rw [← List.forall₂_eq_eq_eq, List.forall₂_map_left_iff]
    exact (each.imp fun _ _ => And.left).flip
  rw [sorted, ← same]
  exact (List.mergeSort_perm _ _).map _

/-! ## Sockets -/

theorem serve_eq_ok {running : Server} {listener : NetAddr}
    (served : s.serve fold listener = .ok running ∨ s.serveWrapped fold listener = .ok running) :
    running.proxyAuth = s.proxyAuth ∧ running.proxyToken = s.proxyToken ∧
      (s.proxyAuth = .loopbackOnly → boundListenScope listener = .loopbackOnly) := by
  have judged : s.bindRefusal fold listener (boundListenScope listener) = none ∧
      running.proxyAuth = s.proxyAuth ∧ running.proxyToken = s.proxyToken := by
    rcases served with direct | wrapped
    · unfold Server.serve at direct
      dsimp only at direct
      split at direct
      · cases direct
      next passed =>
        cases direct
        exact ⟨passed, rfl, rfl⟩
    · unfold Server.serveWrapped at wrapped
      split at wrapped
      · cases wrapped
      next passed =>
        cases wrapped
        exact ⟨passed, rfl, rfl⟩
  obtain ⟨passed, auth, token⟩ := judged
  refine ⟨auth, token, ?_⟩
  intro tokenless
  unfold Server.bindRefusal at passed
  split at passed
  · assumption
  · cases passed

end ClusterRouter.Channel
