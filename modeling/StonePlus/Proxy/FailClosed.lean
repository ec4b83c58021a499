import StonePlus.Proxy.RouteCoordinator

/-!
# StonePlus.Proxy.FailClosed

Once the built-in route has been published or blocked, no request takes the
external route until the user is back on it; and a request stays with the
generation that was current when it was invoked.
-/

namespace StonePlus.Proxy.Coordination

variable {options : CoordinatorOptions}

/-! ## What the parts of a step leave alone -/

/-- The route and the requests are as they were. -/
structure Keeps (s s' : Coordinator) : Prop where
  route : s'.route = s.route
  executors : s'.requests.map Running.executor = s.requests.map Running.executor

theorem Keeps.refl (s : Coordinator) : Keeps s s := ⟨rfl, rfl⟩

theorem Keeps.trans (h : Keeps s s') (h' : Keeps s' s'') : Keeps s s'' :=
  ⟨h'.route.trans h.route, h'.executors.trans h.executors⟩

theorem keeps_modifyGeneration (s : Coordinator) (generation : Nat)
    (f : BuiltInGeneration → BuiltInGeneration) : Keeps s (modifyGeneration s generation f) := ⟨rfl, rfl⟩

theorem keeps_disposeIdle (s : Coordinator) (generation : Nat) : Keeps s (disposeIdle s generation) := by
  unfold disposeIdle
  split
  · split
    · exact keeps_modifyGeneration _ _ _
    · exact .refl s
  · exact .refl s

theorem keeps_retire (s : Coordinator) (generation : Nat) (now : Int) :
    Keeps s (retire options s generation now) := by
  unfold retire
  split
  · split
    · exact .refl s
    · exact (keeps_modifyGeneration _ _ _).trans (keeps_disposeIdle _ _)
  · exact .refl s

theorem keeps_checkRetirement (s : Coordinator) (generation : Nat) (now : Int) :
    Keeps s (checkRetirement options s generation now) := by
  unfold checkRetirement
  split
  · split
    · exact .refl s
    split
    · exact keeps_modifyGeneration _ _ _
    split
    · exact keeps_modifyGeneration _ _ _
    split
    · exact .refl s
    split
    · exact .refl s
    · exact keeps_modifyGeneration _ _ _
  · exact .refl s

theorem keeps_touch (s : Coordinator) (executor : Executor) (f : BuiltInGeneration → BuiltInGeneration) :
    Keeps s (touch s executor f) := by
  unfold touch
  split
  · exact keeps_modifyGeneration _ _ _
  · exact .refl s
  · exact .refl s

theorem keeps_release (s : Coordinator) (executor : Executor) : Keeps s (release s executor) := by
  unfold release
  split
  · exact (keeps_modifyGeneration _ _ _).trans (keeps_disposeIdle _ _)
  · exact .refl s
  · exact .refl s

theorem keeps_setRequest (s : Coordinator) (index : Nat) (stage : RequestStage) :
    Keeps s (setRequest s index stage) := by
  refine ⟨rfl, ?_⟩
  apply List.ext_getElem?
  intro i
  simp only [setRequest, List.getElem?_map, List.getElem?_modify]
  cases s.requests[i]? with
  | none => rfl
  | some request =>
      simp only [Option.map_some]
      split <;> rfl

/-- The stages of a request do not move it to another executor. -/
theorem keeps_advance (s : Coordinator) (index : Nat) (progress : Progress) (now : Int) :
    Keeps s (advance s index progress now) := by
  unfold advance
  split
  · exact .refl s
  · dsimp only
    split
    · exact (keeps_touch _ _ _).trans (keeps_setRequest _ _ _)
    · exact ((keeps_touch _ _ _).trans (keeps_release _ _)).trans (keeps_setRequest _ _ _)
    · exact ((keeps_touch _ _ _).trans (keeps_release _ _)).trans (keeps_setRequest _ _ _)
    · exact (keeps_touch _ _ _).trans (keeps_setRequest _ _ _)
    · exact (keeps_touch _ _ _).trans (keeps_setRequest _ _ _)
    · exact ((keeps_release _ _).trans (keeps_touch _ _ _)).trans (keeps_setRequest _ _ _)
    · exact (keeps_release _ _).trans (keeps_setRequest _ _ _)
    · exact .refl s

/-! ## Publishing -/

@[simp] theorem route_publish (s : Coordinator) (next : Route) (now : Int) :
    (publish options s next now).route = next := by
  unfold publish
  split
  · exact (keeps_retire _ _ _).route
  · rfl

@[simp] theorem executors_publish (s : Coordinator) (next : Route) (now : Int) :
    (publish options s next now).requests.map Running.executor = s.requests.map Running.executor := by
  unfold publish
  split
  · exact (keeps_retire _ _ _).executors
  · rfl

/-! ## What a step adds -/

/-- A request may be handed to an executor under a route. -/
def Route.Allows : Route → Executor → Prop
  | .external _, executor => executor = .external ∨ executor = .loopback
  | .builtIn generation, executor => executor = .builtIn generation ∨ executor = .loopback
  | .blocked _ _ _ _, executor => executor = .loopback

/-- Requests are added that the route allows, and the others keep their executors. -/
def Extends (s s' : Coordinator) : Prop :=
  ∃ added, s'.requests.map Running.executor = s.requests.map Running.executor ++ added ∧
    ∀ executor ∈ added, s.route.Allows executor

theorem Keeps.extends (h : Keeps s s') : Extends s s' :=
  ⟨[], by simp [h.executors], by simp⟩

theorem allows_of_dispatch (h : dispatch options s target = some executor) :
    s.route.Allows executor := by
  unfold dispatch at h
  split at h
  · cases h
  · split at h
    · cases h
      unfold Route.Allows
      split <;> simp
    · unfold Route.Allows
      split at h <;> cases h
      · next hroute => simp [hroute]
      · next hroute => simp [hroute]

theorem route_execute (s : Coordinator) (target : Option Url) (executor : Executor) :
    (execute s target executor).route = s.route := by
  unfold execute
  dsimp only
  split <;> rfl

theorem executors_execute (s : Coordinator) (target : Option Url) (executor : Executor) :
    (execute s target executor).requests.map Running.executor =
      s.requests.map Running.executor ++ [executor] := by
  unfold execute
  dsimp only
  split <;> simp [modifyGeneration]

theorem extends_execute (h : s.route.Allows executor) : Extends s (execute s target executor) :=
  ⟨[executor], executors_execute s target executor, by simpa using h⟩

/-- The route stays, and requests are added that it allows. -/
def Grows (s s' : Coordinator) : Prop := s'.route = s.route ∧ Extends s s'

theorem Keeps.grows (h : Keeps s s') : Grows s s' := ⟨h.route, h.extends⟩

theorem Grows.trans (h : Grows s s') (h' : Grows s' s'') : Grows s s'' := by
  obtain ⟨hroute, added, hadded, hallows⟩ := h
  obtain ⟨hroute', added', hadded', hallows'⟩ := h'
  refine ⟨hroute'.trans hroute, added ++ added', ?_, ?_⟩
  · rw [hadded', hadded, List.append_assoc]
  · intro executor hexecutor
    rcases List.mem_append.mp hexecutor with hmem | hmem
    · exact hallows executor hmem
    · rw [← hroute]
      exact hallows' executor hmem

theorem grows_fetch (s : Coordinator) (target : Option Url) : Grows s (fetch options s target) := by
  unfold fetch
  split
  · next executor hdispatch =>
    exact ⟨route_execute _ _ _, extends_execute (allows_of_dispatch hdispatch)⟩
  · exact (Keeps.refl s).grows

theorem grows_warmTarget (s : Coordinator) (target : Url) : Grows s (warmTarget s target) := by
  unfold warmTarget
  split
  · next generation hroute =>
    refine ⟨route_execute _ _ _, extends_execute ?_⟩
    rw [hroute]
    exact .inl rfl
  · exact (Keeps.refl s).grows

theorem grows_warmTargets (s : Coordinator) (targets : List Url) :
    Grows s (targets.foldl warmTarget s) := by
  induction targets generalizing s with
  | nil => exact (Keeps.refl s).grows
  | cons target targets ih => exact (grows_warmTarget s target).trans (ih _)

theorem grows_warmPending (s : Coordinator) : Grows s (warmPending s) := by
  unfold warmPending
  split
  · exact Keeps.grows ⟨rfl, rfl⟩
  · have hwarmed : Grows s (s.pendingRebuildOrigins.foldl warmTarget { s with pendingRebuildOrigins := [] }) :=
      Grows.trans (Keeps.grows ⟨rfl, rfl⟩) (grows_warmTargets _ _)
    dsimp only
    split
    · exact hwarmed.trans (Keeps.grows ⟨rfl, rfl⟩)
    · exact hwarmed.trans (Keeps.grows ⟨rfl, rfl⟩)

theorem keeps_refreshRoute (s : Coordinator) : Keeps s (refreshRoute s) := by
  unfold refreshRoute
  split <;> exact ⟨rfl, rfl⟩

theorem grows_runRebuild (s : Coordinator) (succeeds : Bool) : Grows s (runRebuild options s succeeds) := by
  unfold runRebuild
  split
  · exact (Keeps.refl s).grows
  · split
    · split <;> exact Keeps.grows ⟨rfl, rfl⟩
    · exact (keeps_refreshRoute s).grows
  · split
    · exact (keeps_refreshRoute s).grows
    · exact Keeps.grows ⟨rfl, rfl⟩
  · split
    · exact grows_warmPending s
    · exact Keeps.grows ⟨rfl, rfl⟩
  · split
    · exact grows_warmPending s
    · exact Keeps.grows ⟨rfl, rfl⟩

/-! ## Operations -/

/-- A route is published that is not the external one. -/
theorem activate_eq_some (h : activate options s activation now = some s') :
    s'.route = .builtIn s.nextGeneration ∧
      s'.requests.map Running.executor = s.requests.map Running.executor := by
  simp only [activate, Option.bind_eq_bind, Option.bind_eq_some_iff] at h
  obtain ⟨_, -, _, -, h⟩ := h
  cases h
  exact ⟨route_publish _ _ _, executors_publish _ _ _⟩

theorem failClosed_eq_some (h : failClosed options s error now = some s') :
    s'.route.isExternal = false ∧
      s'.requests.map Running.executor = s.requests.map Running.executor := by
  simp only [failClosed, Option.bind_eq_bind, Option.bind_eq_some_iff] at h
  obtain ⟨_, -, h⟩ := h
  cases h
  refine ⟨?_, executors_publish _ _ _⟩
  have hroute := @route_publish options { s with nextGeneration := s.nextGeneration + 1 }
    (.blocked s.nextGeneration (normalizeRouteError error) s.metadata s.routePorts) now
  exact congrArg Route.isExternal hroute

theorem executors_completeDisable (h : completeDisable options s now = some s') :
    s'.requests.map Running.executor = s.requests.map Running.executor := by
  simp only [completeDisable, Option.bind_eq_bind, Option.bind_eq_some_iff] at h
  obtain ⟨_, -, h⟩ := h
  cases h
  dsimp only
  split
  · rfl
  · exact executors_publish _ _ _

/-- An operation that only changes what is shown. -/
theorem keeps_of_open {s t : Coordinator} (h : Keeps s t) :
    Keeps s ((assertOpen s >>= fun _ => pure t).getD s) := by
  unfold assertOpen
  split
  · exact .refl s
  · exact h

theorem keeps_restoreReady (s : Coordinator) : Keeps s ((restoreReady s).getD s) := by
  unfold restoreReady assertOpen
  split
  · exact .refl s
  · simp only [Option.bind_eq_bind, Option.bind_some]
    split
    · exact ⟨rfl, rfl⟩
    · exact .refl s

/-- What a step does to the route: it stays and allows what is added, or another
is published. -/
theorem step_cases (s : Coordinator) (event : Event) :
    Grows s (step options s event) ∨
      (step options s event).requests.map Running.executor = s.requests.map Running.executor ∧
        ((step options s event).route.isExternal = false ∨ ∃ now, event = .completeDisable now) := by
  cases event with
  | requestEnable => exact .inl (Keeps.grows (keeps_of_open ⟨rfl, rfl⟩))
  | markStarting => exact .inl (Keeps.grows (keeps_of_open ⟨rfl, rfl⟩))
  | restoreReady => exact .inl (keeps_restoreReady s).grows
  | activate activation now =>
      simp only [step]
      cases hresult : activate options s activation now with
      | none => exact .inl (Keeps.refl s).grows
      | some s' =>
          obtain ⟨hroute, hrequests⟩ := activate_eq_some hresult
          refine .inr ⟨hrequests, .inl ?_⟩
          rw [Option.getD_some, hroute]
          rfl
  | reportError error now =>
      simp only [step, reportError]
      split
      · cases hresult : failClosed options s error now with
        | none => exact .inl (Keeps.refl s).grows
        | some s' =>
            obtain ⟨hroute, hrequests⟩ := failClosed_eq_some hresult
            exact .inr ⟨hrequests, .inl hroute⟩
      · exact .inl (Keeps.grows ⟨rfl, rfl⟩)
  | failClosed error now =>
      simp only [step]
      cases hresult : failClosed options s error now with
      | none => exact .inl (Keeps.refl s).grows
      | some s' =>
          obtain ⟨hroute, hrequests⟩ := failClosed_eq_some hresult
          exact .inr ⟨hrequests, .inl hroute⟩
  | beginDisable => exact .inl (Keeps.grows (keeps_of_open ⟨rfl, rfl⟩))
  | disableFailed error => exact .inl (Keeps.grows (keeps_of_open ⟨rfl, rfl⟩))
  | completeDisable now =>
      simp only [step]
      cases hresult : completeDisable options s now with
      | none => exact .inl (Keeps.refl s).grows
      | some s' => exact .inr ⟨executors_completeDisable hresult, .inr ⟨now, rfl⟩⟩
  | addDirectLoopbackPorts ports => exact .inl (Keeps.grows ⟨rfl, rfl⟩)
  | setDirectLoopbackPorts ports => exact .inl (Keeps.grows ⟨rfl, rfl⟩)
  | fetch target => exact .inl (grows_fetch s target)
  | advance index progress now => exact .inl (keeps_advance s index progress now).grows
  | checkRetirement generation now => exact .inl (keeps_checkRetirement s generation now).grows
  | forceDisposal generation => exact .inl (keeps_modifyGeneration s generation _).grows
  | rebuild origins => exact .inl (Keeps.grows (keeps_of_open ⟨rfl, rfl⟩))
  | runRebuild succeeds => exact .inl (grows_runRebuild s succeeds)
  | close => exact .inl (Keeps.grows ⟨rfl, rfl⟩)
  | finishClose now =>
      simp only [step, finishClose]
      split
      · exact .inl (Keeps.refl s).grows
      · split
        · exact .inl (keeps_retire s _ now).grows
        · exact .inl (Keeps.refl s).grows

/-! ## Runs -/

/-- An activation or a failure that does not throw. -/
def TakesOver (options : CoordinatorOptions) (s : Coordinator) : Event → Prop
  | .activate activation now => (activate options s activation now).isSome = true
  | .failClosed error now => (failClosed options s error now).isSome = true
  | _ => False

def Event.isCompleteDisable : Event → Bool
  | .completeDisable _ => true
  | _ => false

theorem not_external_of_takesOver (h : TakesOver options s event) :
    (step options s event).route.isExternal = false := by
  cases event with
  | activate activation now =>
      obtain ⟨s', hresult⟩ := Option.isSome_iff_exists.mp h
      simp only [step, hresult, Option.getD_some]
      rw [(activate_eq_some hresult).1]
      rfl
  | failClosed error now =>
      obtain ⟨s', hresult⟩ := Option.isSome_iff_exists.mp h
      simp only [step, hresult, Option.getD_some]
      exact (failClosed_eq_some hresult).1
  | _ => exact h.elim

theorem ne_external_of_allows {route : Route} (hroute : route.isExternal = false)
    (h : route.Allows executor) : executor ≠ .external := by
  cases route with
  | external generation => cases hroute
  | builtIn generation => rcases h with rfl | rfl <;> simp
  | blocked generation error metadata ports =>
      rw [show executor = .loopback from h]
      simp

/-- Away from the external route, every step stays away from it. -/
theorem step_away {s : Coordinator} (haway : s.route.isExternal = false) {event : Event}
    (hevent : event.isCompleteDisable = false) :
    (step options s event).route.isExternal = false ∧
      ∃ added, (step options s event).requests.map Running.executor =
        s.requests.map Running.executor ++ added ∧ .external ∉ added := by
  rcases step_cases s event with ⟨hroute, added, hadded, hallows⟩ | ⟨hrequests, hroute⟩
  · refine ⟨by rwa [hroute], added, hadded, ?_⟩
    intro hmem
    exact ne_external_of_allows haway (hallows _ hmem) rfl
  · refine ⟨?_, [], by simp [hrequests], by simp⟩
    rcases hroute with haway' | ⟨now, rfl⟩
    · exact haway'
    · cases hevent

theorem run_away {s : Coordinator} (haway : s.route.isExternal = false) {events : List Event}
    (hevents : ∀ event ∈ events, event.isCompleteDisable = false) :
    ∃ added, (Lib.run (step options) s events).requests.map Running.executor =
      s.requests.map Running.executor ++ added ∧ .external ∉ added := by
  induction events generalizing s with
  | nil => exact ⟨[], by simp, by simp⟩
  | cons event events ih =>
      obtain ⟨haway', added, hadded, hnone⟩ :=
        @step_away options s haway event (hevents event List.mem_cons_self)
      obtain ⟨added', hadded', hnone'⟩ :=
        ih haway' fun event' hmem => hevents event' (List.mem_cons_of_mem event hmem)
      refine ⟨added ++ added', ?_, ?_⟩
      · rw [Lib.run_cons, hadded', hadded, List.append_assoc]
      · simp [hnone, hnone']

/-- Requests keep their executors. -/
theorem run_executors (s : Coordinator) (events : List Event) :
    s.requests.map Running.executor <+:
      (Lib.run (step options) s events).requests.map Running.executor := by
  refine Lib.run_rel (r := fun s s' =>
    s.requests.map Running.executor <+: s'.requests.map Running.executor)
    (fun _ => List.prefix_rfl) (fun _ _ _ => List.IsPrefix.trans) ?_ s events
  intro s event
  rcases @step_cases options s event with ⟨-, added, hadded, -⟩ | ⟨hrequests, -⟩
  · exact ⟨added, hadded.symm⟩
  · exact ⟨[], by simp [hrequests]⟩

/-- In every run: after an activation or a failure that has not been followed by
`completeDisable`, no request is handed to the external fetch; and a request
that is handed to a generation is so to the one that is current, which keeps it. -/
theorem routing_fails_closed (options : CoordinatorOptions) :
    (∀ (before after : List Event) (takeover : Event),
      TakesOver options (Lib.run (step options) .initial before) takeover →
      (∀ event ∈ after, event.isCompleteDisable = false) →
      ∀ request ∈ (Lib.run (step options) .initial (before ++ takeover :: after)).requests.drop
        (Lib.run (step options) .initial (before ++ [takeover])).requests.length,
        request.executor ≠ .external) ∧
    (∀ (before after : List Event) (target : Option Url) (executor : Executor),
      dispatch options (Lib.run (step options) .initial before) target = some executor →
      (∀ generation, executor = .builtIn generation →
        (Lib.run (step options) .initial before).route = .builtIn generation) ∧
      ((Lib.run (step options) .initial (before ++ .fetch target :: after)).requests[
        (Lib.run (step options) .initial before).requests.length]?).map Running.executor =
          some executor) := by
  constructor
  · intro before after takeover htakes hafter request hrequest
    rw [Lib.run_append, Lib.run_cons, Lib.run_append, Lib.run_cons, Lib.run_nil] at hrequest
    generalize Lib.run (step options) .initial before = s at htakes hrequest
    obtain ⟨added, hadded, hnone⟩ := @run_away options _ (not_external_of_takesOver htakes) _ hafter
    have hmem : request.executor ∈ added := by
      have hdrop := congrArg (List.drop (step options s takeover).requests.length) hadded
      rw [← List.map_drop, List.drop_left' (by simp)] at hdrop
      rw [← hdrop]
      exact List.mem_map_of_mem hrequest
    intro hexternal
    rw [hexternal] at hmem
    exact hnone hmem
  · intro before after target executor hdispatch
    rw [Lib.run_append, Lib.run_cons]
    generalize Lib.run (step options) .initial before = s at hdispatch ⊢
    refine ⟨?_, ?_⟩
    · intro generation hexecutor
      have hallows := allows_of_dispatch hdispatch
      rw [hexecutor] at hallows
      unfold Route.Allows at hallows
      split at hallows <;> simp_all
    · have hfetched : (step options s (.fetch target)).requests.map Running.executor =
          s.requests.map Running.executor ++ [executor] := by
        simp only [step, fetch, hdispatch]
        exact executors_execute s target executor
      obtain ⟨added, hadded⟩ := @run_executors options (step options s (.fetch target)) after
      rw [← List.getElem?_map, ← hadded, hfetched]
      simp

/-- Coordinator options under which only `127.0.0.1` is a loopback host. -/
def plainOptions : CoordinatorOptions where
  isLoopbackHostname hostname := hostname = js "127.0.0.1"
  retry := false
  retirementDrainTimeoutMs := 5000
  retirementFinalTimeoutMs := 3600000

def url (protocol hostname : String) (port : Option Nat) : Url :=
  ⟨js protocol, js hostname, port, [], []⟩

/-- The built-in route is published for a mixed listener. -/
def published : Event :=
  .activate ⟨some (url "http:" "127.0.0.1" (some 7890)), none, none, none, none, []⟩ 0

/-- The built-in route is published, fails and is about to be given up, and
requests are made all along. -/
def takenOver : List Event :=
  [.fetch (some (url "https:" "example.com" none)), .failClosed (.text (js "core crashed")) 1,
    .fetch (some (url "https:" "example.com" none)), .beginDisable, .disableFailed (.text (js "busy")),
    .fetch (some (url "http:" "127.0.0.1" (some 7890)))]

theorem published_route_takes_requests :
    (∀ request ∈ (Lib.run (step plainOptions) .initial ([.requestEnable] ++ published :: takenOver)).requests.drop
      (Lib.run (step plainOptions) .initial ([.requestEnable] ++ [published])).requests.length,
      request.executor ≠ .external) ∧
    (Lib.run (step plainOptions) .initial ([.requestEnable] ++ published :: takenOver)).requests.map
      Running.executor = [.builtIn 1, .loopback] :=
  ⟨(routing_fails_closed plainOptions).1 [.requestEnable] takenOver published (by
    show (activate plainOptions _ _ _).isSome = true
    decide) (by decide), by decide⟩

end StonePlus.Proxy.Coordination
