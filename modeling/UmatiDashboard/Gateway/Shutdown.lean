import Mathlib.Tactic.SplitIfs
import UmatiDashboard.Gateway.ResetProtocol

/-!
# Stopping the gateway

After the signal handler has cleared `running`, every step brings the main thread closer to its
end, except one that catches an exception of `readTypes`: that loop does not look at the flag. So
the program comes to its end after a bounded number of steps beside those (`stops_soon`), and
iterates a client at most once on the way.
-/

namespace UmatiDashboard

namespace Gateway

/-- An upper bound on the steps of the main thread to its end, once the program was stopped. -/
def distance : MainPoint → ℕ
  | .returned _ | .terminated _ => 0
  | .outerLoop => 1
  | .runningCheck => 2
  | .iterate | .startMachineObserver => 3
  | .innerCheck | .readTypes => 4
  | .connected => 5
  | .connecting _ => 6
  | .construct => 7
  | .resetClear => 8
  | .resetCheck => 9

/-- How many iterations the main thread is yet to begin, once the program was stopped. -/
def iterationsLeft : MainPoint → ℕ
  | .innerCheck | .iterate => 1
  | _ => 0

/-- The step is one of the main thread. -/
def isMainStep : GatewayStep → Bool
  | .main _ => true
  | _ => false

/-- How many steps of a run are of the main thread. -/
def mainSteps (ks : List GatewayStep) : ℕ := ks.countP isMainStep

/-- How often reading the types failed and was tried again. -/
def retries (log : List GatewayEvent) : ℕ := log.count .typesFailed

variable {s s' : Gateway} {l : List GatewayEvent}

theorem iterations_append (log : List GatewayEvent) :
    iterations (log ++ evs) = iterations log + iterations evs :=
  List.countP_append

theorem retries_append (log : List GatewayEvent) :
    retries (log ++ evs) = retries log + retries evs :=
  List.count_append

/-- What becomes of a stopped program in `n` steps of the main thread. -/
structure Approaches (n : ℕ) (s s' : Gateway) : Prop where
  running : s'.running = false
  steps : s'.point.isFinal = true ∨
    distance s'.point + n + retries s.log ≤ distance s.point + retries s'.log
  iterations :
    iterationsLeft s'.point + iterations s'.log ≤ iterationsLeft s.point + iterations s.log

/-- The main thread goes to a point that is nearer to its end, with what it adds to the log. -/
theorem approaches_of_lt (hstop : s'.running = false) (hlog : s'.log = s.log ++ l)
    (hquiet : iterations l = 0) (hdist : distance s'.point < distance s.point)
    (hleft : iterationsLeft s'.point ≤ iterationsLeft s.point) : Approaches 1 s s' where
  running := hstop
  steps := by
    rw [hlog, retries_append]
    omega
  iterations := by
    rw [hlog, iterations_append]
    omega

/-- **One step of a main thread that was stopped**: it comes closer to its end, or tries again to
read the types. -/
theorem mainStep_of_stopped (hstop : s.running = false) (a : MainAnswers) :
    Approaches 1 s (s.mainStep a) := by
  have hsame : s.log = s.log ++ [] := (List.append_nil _).symm
  unfold mainStep
  split
  case h_1 hp =>
    refine approaches_of_lt hstop hsame rfl ?_ ?_ <;>
      simp [goto, hp, hstop, distance, iterationsLeft]
  case h_2 hp =>
    split_ifs
    · exact approaches_of_lt hstop hsame rfl (by simp [goto, hp, distance])
        (by simp [goto, hp, iterationsLeft])
    · exact approaches_of_lt hstop hsame rfl (by simp [goto, hp, distance])
        (by simp [goto, hp, iterationsLeft])
  case h_3 hp =>
    exact approaches_of_lt hstop hsame rfl (by simp [goto, hp, distance])
      (by simp [goto, hp, iterationsLeft])
  case h_4 hp =>
    exact approaches_of_lt (l := [.constructed]) hstop rfl rfl (by simp [goto, hp, distance])
      (by simp [goto, hp, iterationsLeft])
  case h_5 i hp =>
    refine approaches_of_lt hstop hsame rfl ?_ ?_ <;>
      simp [goto, hp, hstop, distance, iterationsLeft]
  case h_6 hp =>
    refine approaches_of_lt hstop hsame rfl ?_ ?_ <;> split_ifs <;>
      simp [goto, hp, distance, iterationsLeft]
  case h_7 hp =>
    split
    · exact approaches_of_lt (l := [.typesRead]) hstop rfl rfl (by simp [goto, hp, distance])
        (by simp [goto, hp, iterationsLeft])
    · split_ifs
      · -- the one step that may be made any number of times
        have hretries : retries (s.record .typesFailed).log = retries s.log + 1 :=
          retries_append s.log
        have hiter : iterations (s.record .typesFailed).log = iterations s.log :=
          iterations_append s.log
        refine ⟨hstop, .inr ?_, ?_⟩
        · rw [hretries]
          change distance s.point + 1 + retries s.log ≤ distance s.point + (retries s.log + 1)
          omega
        · rw [hiter]
          exact Nat.le_refl _
      · exact approaches_of_lt hstop hsame rfl (by simp [goto, hp, distance])
          (by simp [goto, hp, iterationsLeft])
  case h_8 hp =>
    exact approaches_of_lt (l := [.observerStarted a.now]) hstop rfl rfl
      (by simp [goto, hp, distance]) (by simp [goto, hp, iterationsLeft])
  case h_9 hp =>
    refine approaches_of_lt hstop hsame rfl ?_ ?_ <;>
      simp [goto, hp, hstop, distance, iterationsLeft]
  case h_10 hp =>
    refine approaches_of_lt hstop hsame rfl ?_ ?_ <;> split_ifs <;>
      simp [goto, hp, distance, iterationsLeft]
  case h_11 hp =>
    -- the last iteration is at most the one that was begun
    obtain ⟨evs, h⟩ := reports_iterate s a
    have hlog : (s.iterate a).log = s.log ++ .iterating a.now :: evs := by
      rw [h.log]
      simp [goto, record]
    have hiter : iterations (GatewayEvent.iterating a.now :: evs) = 1 := by
      rw [iterations, List.countP_cons_of_pos rfl]
      exact congrArg (· + 1) (iterations_of_reports h.reports)
    have hpoint : distance (s.iterate a).point ≤ 2 ∧ iterationsLeft (s.iterate a).point = 0 := by
      rcases h.point with heq | ⟨e, heq⟩
      · rw [heq]
        exact ⟨Nat.le_refl _, rfl⟩
      · rw [heq]
        exact ⟨Nat.zero_le _, rfl⟩
    have hbefore : distance s.point = 3 ∧ iterationsLeft s.point = 1 := by
      rw [hp]
      exact ⟨rfl, rfl⟩
    refine ⟨h.running.trans hstop, .inr ?_, ?_⟩
    · rw [hlog, retries_append]
      omega
    · rw [hlog, iterations_append]
      omega
  case h_12 hp => exact ⟨hstop, .inl (by rw [hp]; rfl), Nat.le_refl _⟩
  case h_13 hp => exact ⟨hstop, .inl (by rw [hp]; rfl), Nat.le_refl _⟩

/-- The other threads bring the main thread no further. -/
theorem approaches_zero (hstop : s'.running = false) (hpoint : s'.point = s.point)
    (hlog : s'.log = s.log ++ l) (hquiet : iterations l = 0) : Approaches 0 s s' where
  running := hstop
  steps := by
    rw [hpoint, hlog, retries_append]
    omega
  iterations := by
    rw [hpoint, hlog, iterations_append]
    omega

theorem step_of_stopped (hstop : s.running = false) (k : GatewayStep) :
    Approaches (mainSteps [k]) s (s.step k) := by
  cases k with
  | stop => exact approaches_zero (l := [.stopped]) rfl rfl rfl rfl
  | issueReset =>
    change Approaches 0 s (if s.point.hasClient = true then s.issueReset else s)
    split_ifs
    · exact approaches_zero (l := [.resetIssued]) hstop rfl rfl rfl
    · exact approaches_zero (l := []) hstop rfl (List.append_nil _).symm rfl
  | main a => exact mainStep_of_stopped hstop a

/-- A main thread that is done stays so. -/
theorem isFinal_step (h : s.point.isFinal = true) (k : GatewayStep) :
    (s.step k).point = s.point := by
  cases k with
  | stop => rfl
  | issueReset =>
    change (if s.point.hasClient = true then s.issueReset else s).point = s.point
    split_ifs <;> rfl
  | main a =>
    change (s.mainStep a).point = s.point
    unfold mainStep
    split <;> first | rfl | simp_all [MainPoint.isFinal]

/-- The same for a run. -/
theorem after_of_stopped (hstop : s.running = false) (ks : List GatewayStep) :
    Approaches (mainSteps ks) s (s.after ks) := by
  induction ks generalizing s with
  | nil => exact approaches_zero (l := []) hstop rfl (List.append_nil _).symm rfl
  | cons k ks ih =>
    have hfirst := step_of_stopped hstop k
    have hrest : Approaches (mainSteps ks) (s.step k) (s.after (k :: ks)) := ih hfirst.running
    have hsplit : mainSteps (k :: ks) = mainSteps [k] + mainSteps ks := by
      rw [mainSteps, ← List.singleton_append, List.countP_append]
      rfl
    refine ⟨hrest.running, ?_, hrest.iterations.trans hfirst.iterations⟩
    rcases hrest.steps with hfinal | hsteps
    · exact .inl hfinal
    · rcases hfirst.steps with hfinal | hsteps'
      · have hstays : ∀ (ks : List GatewayStep) (s : Gateway), s.point.isFinal = true →
            (s.after ks).point.isFinal = true := by
          intro ks
          induction ks with
          | nil => exact fun _ h => h
          | cons k ks ih => exact fun s h => ih (s.step k) (by rw [isFinal_step h]; exact h)
        exact .inl (hstays ks _ hfinal)
      · exact .inr (by omega)

theorem distance_pos_of_not (h : s.point.isFinal = false) : 1 ≤ distance s.point := by
  cases hp : s.point <;> simp [hp, distance, MainPoint.isFinal] at h ⊢

theorem distance_le (p : MainPoint) : distance p ≤ 9 := by
  cases p <;> simp [distance]

/-- **A stopped program comes to its end.** In every run, at whatever moment the signal comes and
whatever the other threads do: once it has come, the main thread makes less than nine steps,
beside those that catch an exception of `readTypes`, before it is done, and it begins at most one
more iteration. -/
theorem stops_soon (before ks : List GatewayStep) :
    ((start.after (before ++ .stop :: ks)).point.isFinal = true ∨
      mainSteps ks + retries (start.after before).log <
        9 + retries (start.after (before ++ .stop :: ks)).log) ∧
    iterations (start.after (before ++ .stop :: ks)).log ≤
      iterations (start.after before).log + 1 := by
  have hrun : start.after (before ++ .stop :: ks) = (start.after before).stop.after ks := by
    rw [after, Transition.run, List.foldl_append]
    rfl
  rw [hrun]
  generalize start.after before = s
  have h : Approaches (mainSteps ks) s.stop (s.stop.after ks) := after_of_stopped rfl ks
  have hretries : retries s.stop.log = retries s.log := retries_append s.log
  have hiter : iterations s.stop.log = iterations s.log := iterations_append s.log
  have hpoint : s.stop.point = s.point := rfl
  have hsteps := h.steps
  have hiterations := h.iterations
  rw [hretries, hpoint] at hsteps
  rw [hiter, hpoint] at hiterations
  constructor
  · by_cases hfinal : (s.stop.after ks).point.isFinal = true
    · exact .inl hfinal
    · have hpos := distance_pos_of_not (s := s.stop.after ks) (by simpa using hfinal)
      have hle := distance_le s.point
      have hbound := hsteps.resolve_left hfinal
      exact .inr (by omega)
  · have hleft : iterationsLeft s.point ≤ 1 := by
      cases s.point <;> simp [iterationsLeft]
    omega

end Gateway

end UmatiDashboard
