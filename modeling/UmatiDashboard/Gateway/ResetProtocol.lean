import UmatiDashboard.Effect.EventLog
import UmatiDashboard.Gateway.MainLoop

/-!
# How a reset is answered

A request sets a flag that the main thread looks at before each iteration and clears before it
builds the next client. The flag is set exactly while the client in use has requested a reset
(`Requests.flag`). So after a request the main thread iterates the client at most once more, and
every client but the first one is built because its predecessor has requested it.
-/

namespace UmatiDashboard

namespace Gateway

open EventLog

/-- The events since the client in use was constructed. -/
abbrev session (log : List GatewayEvent) : List GatewayEvent := since (· = .constructed) log

def isIterating : GatewayEvent → Bool
  | .iterating _ => true
  | _ => false

/-- How often a client was iterated. -/
def iterations (es : List GatewayEvent) : ℕ := es.countP isIterating

/-- After a request the client is iterated at most `n` times. -/
def Answered (n : ℕ) (es : List GatewayEvent) : Prop :=
  ∀ pre mid, es = pre ++ .resetIssued :: mid → iterations mid ≤ n

/-- The events of an iteration, after its beginning. -/
def isReport : GatewayEvent → Bool
  | .published _ | .listsPublished _ | .verified _ _ | .resetIssued => true
  | _ => false

section Segments

variable {n : ℕ} {es evs : List GatewayEvent}

theorem hereditary_answered : Hereditary (Answered n) := by
  rintro es es' ⟨a, b, rfl⟩ h pre mid rfl
  have hcount := h (a ++ pre) (mid ++ b) (by simp)
  rw [iterations, List.countP_append] at hcount
  exact Nat.le_trans (Nat.le_add_right _ _) hcount

theorem answered_of_not_mem (h : .resetIssued ∉ es) : Answered n es := by
  rintro pre mid rfl
  exact absurd (by simp) h

/-- Reports do not iterate, nor does a request. -/
theorem iterations_of_reports (h : ∀ e ∈ evs, isReport e = true) : iterations evs = 0 := by
  refine List.countP_eq_zero.mpr fun e he => ?_
  have hreport := h e he
  cases e <;> simp [isReport, isIterating] at hreport ⊢

/-- Events that do not iterate the client answer nothing. -/
theorem Answered.append (h : Answered n es) (hevs : iterations evs = 0) :
    Answered n (es ++ evs) := by
  intro pre mid heq
  have hquiet : ∀ evs', evs' <:+ evs → iterations evs' = 0 := fun evs' hsub =>
    Nat.le_zero.mp (hevs ▸ hsub.sublist.countP_le)
  rcases List.append_eq_append_iff.mp heq with ⟨as, rfl, hmid⟩ | ⟨bs, rfl, hmid⟩
  · -- the request is among the new events
    have hsuffix : mid <:+ evs := ⟨as ++ [.resetIssued], by rw [hmid]; simp⟩
    rw [hquiet mid hsuffix]
    exact Nat.zero_le n
  · cases bs with
    | nil =>
      have hsuffix : mid <:+ evs := ⟨[.resetIssued], by simpa using hmid⟩
      rw [hquiet mid hsuffix]
      exact Nat.zero_le n
    | cons b bs =>
      rw [List.cons_append] at hmid
      obtain ⟨rfl, rfl⟩ := List.cons.inj hmid
      rw [iterations] at hevs
      rw [iterations, List.countP_append, hevs, Nat.add_zero]
      exact h pre bs rfl

/-- One more iteration. -/
theorem Answered.append_iterating (h : Answered n es) (now : ℤ) :
    Answered (n + 1) (es ++ [.iterating now]) := by
  intro pre mid heq
  rcases List.eq_nil_or_concat mid with rfl | ⟨mid', last, rfl⟩
  · simp [iterations]
  · have heq' : es ++ [.iterating now] = (pre ++ .resetIssued :: mid') ++ [last] := by
      rw [heq]
      simp
    obtain ⟨hes, -⟩ := List.append_inj' heq' rfl
    have hcount := h pre mid' hes
    have hlast : iterations [last] ≤ 1 := List.countP_le_length
    rw [iterations, List.concat_eq_append, List.countP_append]
    change iterations mid' + iterations [last] ≤ n + 1
    omega

end Segments

/-! ### What an iteration does -/

/-- What `s'` has done since `s`: it has reported `evs`, and the flag for resets is set if it was
set or one of the reports is a request. -/
structure Reports (s s' : Gateway) (evs : List GatewayEvent) : Prop where
  log : s'.log = s.log ++ evs
  reports : ∀ e ∈ evs, isReport e = true
  reset : s'.reset = true ↔ s.reset = true ∨ .resetIssued ∈ evs
  running : s'.running = s.running
  resetCounter : s'.resetCounter = s.resetCounter
  point : s'.point = s.point ∨ ∃ e, s'.point = .terminated e

theorem Reports.trans {s s' s'' : Gateway} {evs evs' : List GatewayEvent} (h : Reports s s' evs)
    (h' : Reports s' s'' evs') : Reports s s'' (evs ++ evs') where
  log := by rw [h'.log, h.log, List.append_assoc]
  reports e he := (List.mem_append.mp he).elim (h.reports e) (h'.reports e)
  reset := by rw [h'.reset, h.reset, List.mem_append, or_assoc]
  running := h'.running.trans h.running
  resetCounter := h'.resetCounter.trans h.resetCounter
  point := by
    rcases h'.point with heq | hend
    · rw [heq]
      exact h.point
    · exact .inr hend

variable {s : Gateway}

theorem Reports.refl (s : Gateway) : Reports s s [] where
  log := by simp
  reports e he := by simp at he
  reset := by simp
  running := rfl
  resetCounter := rfl
  point := .inl rfl

theorem reports_publishAll (s : Gateway) (a : MainAnswers) :
    ∃ evs, Reports s (s.publishAll a) evs ∧ .resetIssued ∉ evs := by
  unfold publishAll
  split
  · exact ⟨[], ⟨by simp [goto], by simp, by simp [goto], rfl, rfl, .inr ⟨_, rfl⟩⟩, by simp⟩
  · dsimp only
    split_ifs
    · split
      · exact ⟨[.published a.now], ⟨rfl, by simp [isReport], by simp [goto, record], rfl, rfl,
          .inr ⟨_, rfl⟩⟩, by simp⟩
      · exact ⟨[.published a.now, .listsPublished a.now],
          ⟨by simp [record], by simp [isReport], by simp [record], rfl, rfl, .inl rfl⟩, by simp⟩
    · exact ⟨[.published a.now], ⟨rfl, by simp [isReport], by simp [record], rfl, rfl, .inl rfl⟩,
        by simp⟩

theorem reports_verifyConnection (s : Gateway) (a : MainAnswers) :
    ∃ evs, Reports s (s.verifyConnection a) evs := by
  unfold verifyConnection
  dsimp only
  split_ifs
  · exact ⟨[.verified a.now a.verifyConnection], rfl, by simp [isReport], by simp [record], rfl,
      rfl, .inl rfl⟩
  · exact ⟨[.verified a.now a.verifyConnection, .resetIssued], by simp [record, issueReset],
      by simp [isReport], by simp [record, issueReset], rfl, rfl, .inl rfl⟩

/-- **What `Iterate` does**: it records that it begins, then it reports, and then the main thread
looks at the flags again, unless an exception has ended the program. -/
theorem reports_iterate (s : Gateway) (a : MainAnswers) :
    ∃ evs, Reports ((s.record (.iterating a.now)).goto .runningCheck) (s.iterate a) evs := by
  unfold iterate
  dsimp only
  generalize (s.record (.iterating a.now)).goto .runningCheck = s₀
  obtain ⟨evs, hpub⟩ : ∃ evs, Reports s₀ (s₀.publishIfDue a) evs := by
    unfold publishIfDue
    split_ifs
    · obtain ⟨evs, h, -⟩ := reports_publishAll { s₀ with lastPublish := a.now } a
      exact ⟨evs, h.log, h.reports, h.reset, h.running, h.resetCounter, h.point⟩
    · exact ⟨[], .refl s₀⟩
  split_ifs
  · exact ⟨evs, hpub⟩
  · obtain ⟨evs', hver⟩ : ∃ evs', Reports (s₀.publishIfDue a) ((s₀.publishIfDue a).verifyIfDue a)
        evs' := by
      unfold verifyIfDue
      split_ifs
      · obtain ⟨evs', h⟩ := reports_verifyConnection
          { s₀.publishIfDue a with lastConnectionVerify := a.now } a
        exact ⟨evs', h.log, h.reports, h.reset, h.running, h.resetCounter, h.point⟩
      · exact ⟨[], .refl _⟩
    exact ⟨evs ++ evs', hpub.trans hver⟩

/-! ### The invariant -/

/-- How many clients were constructed. -/
def constructions (log : List GatewayEvent) : ℕ := log.count .constructed

/-- No client was constructed yet, and none can have requested a reset. -/
structure First (s : Gateway) : Prop where
  constructions : constructions s.log = 0
  resetCounter : s.resetCounter = 0
  reset : s.reset = false

/-- The flag is set if the last client has requested a reset, and the counter counts the clients
before it. -/
structure Last (s : Gateway) : Prop where
  constructions : constructions s.log = s.resetCounter + 1
  flag : s.reset = true ↔ .resetIssued ∈ session s.log

theorem First.goto (h : First s) (p : MainPoint) : First (s.goto p) := ⟨h.1, h.2, h.3⟩

theorem Last.goto (h : Last s) (p : MainPoint) : Last (s.goto p) := ⟨h.1, h.2⟩

/-- What is known where the main thread is. -/
def Phase (s : Gateway) : MainPoint → Prop
  | .outerLoop => First s ∨ Last s ∧ (s.running = false ∨ .resetIssued ∈ session s.log)
  | .resetCheck => First s ∨ Last s ∧ .resetIssued ∈ session s.log
  | .resetClear => constructions s.log = s.resetCounter ∧ .resetIssued ∈ session s.log
  | .construct => constructions s.log = s.resetCounter ∧ s.reset = false ∧
      (constructions s.log = 0 ∨ .resetIssued ∈ session s.log)
  | .iterate => Last s ∧ Answered 0 (session s.log)
  | .returned _ | .terminated _ => True
  | _ => Last s

/-- The invariant: every request is answered, and the flag says what the log says. -/
structure Requests (s : Gateway) : Prop where
  once : Answered 1 (session s.log)
  phase : s.Phase s.point

theorem requests_start : Requests start where
  once := answered_of_not_mem (by simp [start])
  phase := .inl ⟨rfl, rfl, rfl⟩

namespace Requests

variable {s' : Gateway} {l : List GatewayEvent} {p : MainPoint}

/-- Events none of which constructs a client. -/
theorem session_append (hevs : .constructed ∉ l) (log : List GatewayEvent) :
    session (log ++ l) = session log ++ l :=
  since_append log fun _ he heq => hevs (heq ▸ he)

theorem session_construct (log : List GatewayEvent) : session (log ++ [.constructed]) = [] :=
  since_concat_of_mark rfl

theorem constructions_append (hevs : .constructed ∉ l) (log : List GatewayEvent) :
    constructions (log ++ l) = constructions log := by
  rw [constructions, List.count_append, List.count_eq_zero_of_not_mem hevs]
  rfl

theorem not_mem_of_reports (h : ∀ e ∈ l, isReport e = true) : .constructed ∉ l :=
  fun hmem => by simpa [isReport] using h _ hmem

theorem last (h : Requests s) (hclient : s.point.hasClient = true) : Last s := by
  have hphase := h.phase
  cases hp : s.point <;> rw [hp] at hphase hclient
  case iterate => exact hphase.1
  all_goals first | exact hphase | cases hclient

/-- The phases of a client that is not about to be iterated. -/
theorem phase_of_last (h : Last s)
    (hp : (p.hasClient = true ∧ p ≠ .iterate) ∨ p.isFinal = true) : s.Phase p := by
  cases p
  case iterate => simp [MainPoint.isFinal] at hp
  all_goals first | exact h | trivial

/-- A client is in use, and it or the main thread does something, but no iteration begins. -/
theorem inClient (h : Requests s) (hclient : s.point.hasClient = true)
    (hlog : s'.log = s.log ++ l) (hevs : .constructed ∉ l) (hquiet : iterations l = 0)
    (hreset : s'.reset = true ↔ s.reset = true ∨ .resetIssued ∈ l)
    (hcounter : s'.resetCounter = s.resetCounter)
    (hpoint : s'.point = s.point ∨ (s'.point.hasClient = true ∧ s'.point ≠ .iterate) ∨
      s'.point.isFinal = true) : Requests s' := by
  have hlast := h.last hclient
  have hsession : session s'.log = session s.log ++ l := by rw [hlog, session_append hevs]
  have hlast' : Last s' :=
    ⟨by rw [hlog, constructions_append hevs, hlast.constructions, hcounter],
      by rw [hreset, hlast.flag, hsession, List.mem_append]⟩
  refine ⟨by rw [hsession]; exact h.once.append hquiet, ?_⟩
  by_cases hiter : s'.point = .iterate
  · have hphase := h.phase
    rcases hpoint with heq | ⟨-, hne⟩ | hf
    · rw [← heq, hiter] at hphase
      rw [hiter]
      exact ⟨hlast', by rw [hsession]; exact hphase.2.append hquiet⟩
    · exact absurd hiter hne
    · rw [hiter] at hf
      cases hf
  · refine phase_of_last hlast' ?_
    rcases hpoint with heq | h
    · exact .inl ⟨heq ▸ hclient, hiter⟩
    · exact h.imp id id

/-- The main thread goes on with a client in use. -/
theorem goto_inClient (h : Requests s) (hclient : s.point.hasClient = true)
    (hpoint : (p.hasClient = true ∧ p ≠ .iterate) ∨ p.isFinal = true) : Requests (s.goto p) :=
  h.inClient (l := []) hclient (by simp [goto]) (by simp) rfl (by simp [goto]) rfl (.inr hpoint)

/-- It records something that is no request. -/
theorem record_inClient (h : Requests s) (hclient : s.point.hasClient = true) {e : GatewayEvent}
    (he : e ≠ .constructed) (hreq : e ≠ .resetIssued) (hquiet : isIterating e = false) :
    Requests (s.record e) :=
  h.inClient (l := [e]) hclient rfl (by simpa using he.symm) (by simp [iterations, hquiet])
    (by simp [record, hreq.symm]) rfl (.inl rfl)

/-- Stopping changes no request. -/
theorem stop (h : Requests s) : Requests s.stop := by
  have hsession : session s.stop.log = session s.log ++ [.stopped] := session_append (by simp) _
  have hcount : constructions s.stop.log = constructions s.log :=
    constructions_append (by simp) _
  have hmem : .resetIssued ∈ session s.stop.log ↔ .resetIssued ∈ session s.log := by
    simp [hsession]
  have hfirst : First s → First s.stop := fun h => ⟨hcount.trans h.constructions, h.2, h.3⟩
  have hlast : Last s → Last s.stop := fun h => ⟨hcount.trans h.constructions, h.2.trans hmem.symm⟩
  refine ⟨by rw [hsession]; exact h.once.append rfl, ?_⟩
  have hphase := h.phase
  change s.stop.Phase s.point
  cases hp : s.point <;> rw [hp] at hphase
  case outerLoop => exact hphase.imp hfirst fun h => ⟨hlast h.1, .inl rfl⟩
  case resetCheck => exact hphase.imp hfirst fun h => ⟨hlast h.1, hmem.mpr h.2⟩
  case resetClear => exact ⟨hcount.trans hphase.1, hmem.mpr hphase.2⟩
  case construct =>
    exact ⟨hcount.trans hphase.1, hphase.2.1, hphase.2.2.imp hcount.trans hmem.mpr⟩
  case iterate => exact ⟨hlast hphase.1, by rw [hsession]; exact hphase.2.append rfl⟩
  case returned => trivial
  case terminated => trivial
  all_goals exact hlast hphase

/-- An iteration of a client that has not requested a reset, or only since the flag was looked
at. -/
theorem iterate (h : Requests s) (hp : s.point = .iterate) (a : MainAnswers) :
    Requests (s.iterate a) := by
  have hphase := h.phase
  rw [hp] at hphase
  obtain ⟨hlast, hnone⟩ := hphase
  obtain ⟨l, hreports⟩ := reports_iterate s a
  have hevs : .constructed ∉ GatewayEvent.iterating a.now :: l := by
    simpa using not_mem_of_reports hreports.reports
  have hlog : (s.iterate a).log = s.log ++ .iterating a.now :: l := by
    rw [hreports.log]
    simp [goto, record]
  have hsession : session (s.iterate a).log = session s.log ++ .iterating a.now :: l := by
    rw [hlog, session_append hevs]
  have hlast' : Last (s.iterate a) := by
    refine ⟨?_, ?_⟩
    · rw [hlog, constructions_append hevs, hreports.resetCounter]
      exact hlast.constructions
    · rw [hreports.reset, hsession]
      simp [goto, record, hlast.flag]
  refine ⟨?_, phase_of_last hlast' ?_⟩
  · rw [hsession, List.append_cons]
    exact (hnone.append_iterating a.now).append (iterations_of_reports hreports.reports)
  · rcases hreports.point with heq | ⟨e, heq⟩
    · exact .inl ⟨by rw [heq]; rfl, by rw [heq]; exact MainPoint.noConfusion⟩
    · exact .inr (by rw [heq]; rfl)

/-- **Every step keeps the invariant.** -/
theorem step (h : Requests s) (k : GatewayStep) : Requests (s.step k) := by
  cases k with
  | stop => exact h.stop
  | issueReset =>
    change Requests (if s.point.hasClient = true then s.issueReset else s)
    split_ifs with hclient
    · exact h.inClient (l := [.resetIssued]) hclient rfl (by simp) rfl
        (by simp [issueReset, record]) rfl (.inl rfl)
    · exact h
  | main a =>
    -- one case for each point of the main thread, in the order of its points
    have hphase := h.phase
    change Requests (s.mainStep a)
    unfold mainStep
    split
    case h_1 hp =>
      rw [hp] at hphase
      refine ⟨h.once, ?_⟩
      split_ifs with hrun
      · rcases hphase with hfirst | ⟨hlast, hwhy⟩
        · exact .inl (hfirst.goto _)
        · exact .inr ⟨hlast.goto _, hwhy.resolve_left (by simp [hrun])⟩
      · trivial
    case h_2 hp =>
      rw [hp] at hphase
      split_ifs with hreset
      · -- the counter counts the client that has requested the reset
        obtain ⟨hlast, hmem⟩ := hphase.resolve_left fun hfirst => by simp [hfirst.reset] at hreset
        exact ⟨h.once, hlast.constructions, hmem⟩
      · have hnone : s.reset = false := by simpa using hreset
        rcases hphase with hfirst | ⟨hlast, hmem⟩
        · exact ⟨h.once, hfirst.constructions.trans hfirst.resetCounter.symm, hnone,
            .inl hfirst.constructions⟩
        · exact absurd (hlast.flag.mpr hmem) hreset
    case h_3 hp =>
      rw [hp] at hphase
      exact ⟨h.once, hphase.1, rfl, .inr hphase.2⟩
    case h_4 hp =>
      rw [hp] at hphase
      have hsession : session (s.log ++ [.constructed]) = [] := session_construct s.log
      refine ⟨?_, ?_, ?_⟩
      · change Answered 1 (session (s.log ++ [.constructed]))
        rw [hsession]
        exact answered_of_not_mem (by simp)
      · change constructions (s.log ++ [.constructed]) = s.resetCounter + 1
        rw [constructions, List.count_append, ← hphase.1]
        rfl
      · change s.reset = true ↔ .resetIssued ∈ session (s.log ++ [.constructed])
        simp [hsession, hphase.2.1]
    case h_5 i hp =>
      refine h.goto_inClient (by rw [hp]; rfl) (.inl ?_)
      split_ifs
      · exact ⟨rfl, MainPoint.noConfusion⟩
      · exact ⟨rfl, MainPoint.noConfusion⟩
    case h_6 hp =>
      refine h.goto_inClient (by rw [hp]; rfl) ?_
      split_ifs
      · exact .inl ⟨rfl, MainPoint.noConfusion⟩
      · exact .inr rfl
    case h_7 hp =>
      have hclient : s.point.hasClient = true := by rw [hp]; rfl
      split
      · exact (h.record_inClient hclient GatewayEvent.noConfusion GatewayEvent.noConfusion
          rfl).goto_inClient hclient (.inl ⟨rfl, MainPoint.noConfusion⟩)
      · split_ifs
        · exact h.record_inClient hclient GatewayEvent.noConfusion GatewayEvent.noConfusion rfl
        · exact h.goto_inClient hclient (.inr rfl)
    case h_8 hp =>
      exact h.inClient (l := [.observerStarted a.now]) (by rw [hp]; rfl) rfl (by simp) rfl
        (by simp [goto, record]) rfl (.inr (.inl ⟨rfl, MainPoint.noConfusion⟩))
    case h_9 hp =>
      have hclient : s.point.hasClient = true := by rw [hp]; rfl
      split_ifs with hrun
      · exact h.goto_inClient hclient (.inl ⟨rfl, MainPoint.noConfusion⟩)
      · have hstopped : s.running = false := by simpa using hrun
        exact ⟨h.once, .inr ⟨(h.last hclient).goto _, .inl hstopped⟩⟩
    case h_10 hp =>
      have hlast := h.last (by rw [hp]; rfl)
      split_ifs with hreset
      · exact ⟨h.once, .inr ⟨hlast.goto _, .inr (hlast.flag.mp hreset)⟩⟩
      · exact ⟨h.once, hlast.goto _, answered_of_not_mem fun hmem => hreset (hlast.flag.mpr hmem)⟩
    case h_11 hp => exact h.iterate hp a
    case h_12 => exact h
    case h_13 => exact h

end Requests

/-! ### Whole runs -/

/-- What a step adds to the log: a client is constructed, or anything else happens. -/
theorem step_log (s : Gateway) (k : GatewayStep) :
    (s.point = .construct ∧ (s.step k).log = s.log ++ [.constructed]) ∨
      ∃ l, (s.step k).log = s.log ++ l ∧ .constructed ∉ l := by
  have hsame : ∃ l, s.log = s.log ++ l ∧ .constructed ∉ l := ⟨[], by simp, by simp⟩
  cases k with
  | stop => exact .inr ⟨[.stopped], rfl, by simp⟩
  | issueReset =>
    change _ ∨ ∃ l, (if s.point.hasClient = true then s.issueReset else s).log = s.log ++ l ∧ _
    split_ifs
    · exact .inr ⟨[.resetIssued], rfl, by simp⟩
    · exact .inr hsame
  | main a =>
    change _ ∧ (s.mainStep a).log = _ ∨ ∃ l, (s.mainStep a).log = s.log ++ l ∧ _
    unfold mainStep
    split
    case h_2 => split_ifs <;> exact .inr hsame
    case h_4 hp => exact .inl ⟨hp, rfl⟩
    case h_7 =>
      split
      · exact .inr ⟨[.typesRead], rfl, by simp⟩
      · split_ifs
        · exact .inr ⟨[.typesFailed], rfl, by simp⟩
        · exact .inr hsame
    case h_8 => exact .inr ⟨[.observerStarted a.now], rfl, by simp⟩
    case h_11 =>
      obtain ⟨l, h⟩ := reports_iterate s a
      refine .inr ⟨.iterating a.now :: l, ?_, ?_⟩
      · rw [h.log]
        simp [goto, record]
      · simpa using Requests.not_mem_of_reports h.reports
    all_goals exact .inr hsame

/-- Every client but the first one was requested while the one before was in use. -/
def Chained (log : List GatewayEvent) : Prop :=
  ∀ pre post, log = pre ++ .constructed :: post → .constructed ∉ pre ∨ .resetIssued ∈ session pre

/-- What holds of the log of a run. -/
structure Protocol (s : Gateway) : Prop where
  requests : Requests s
  answered : EachSegment (· = .constructed) (Answered 1) s.log
  chained : Chained s.log

theorem protocol_start : Protocol start where
  requests := requests_start
  answered := eachSegment_nil (answered_of_not_mem (by simp))
  chained pre post h := by simp [start] at h

theorem Protocol.step (h : Protocol s) (k : GatewayStep) : Protocol (s.step k) := by
  have hrequests := h.requests.step k
  refine ⟨hrequests, ?_, ?_⟩
  · rcases step_log s k with ⟨-, hlog⟩ | ⟨l, hlog, hevs⟩
    · rw [hlog]
      refine h.answered.concat hereditary_answered ?_
      rw [← hlog]
      exact hrequests.once
    · rw [hlog]
      refine h.answered.append hereditary_answered (fun e he heq => hevs (heq ▸ he)) ?_
      have honce := hrequests.once
      rw [hlog, Requests.session_append hevs] at honce
      exact honce
  · intro pre post heq
    rcases step_log s k with ⟨hp, hlog⟩ | ⟨l, hlog, hevs⟩
    · rw [hlog] at heq
      rcases List.eq_nil_or_concat post with rfl | ⟨post', last, rfl⟩
      · -- the client that is constructed now
        obtain ⟨rfl, -⟩ := List.append_inj' heq rfl
        have hphase := h.requests.phase
        rw [hp] at hphase
        exact hphase.2.2.imp List.count_eq_zero.mp id
      · have heq' : s.log ++ [.constructed] = (pre ++ .constructed :: post') ++ [last] := by
          rw [heq]
          simp
        exact h.chained pre post' (List.append_inj' heq' rfl).1
    · rw [hlog] at heq
      rcases List.append_eq_append_iff.mp heq with ⟨as, rfl, has⟩ | ⟨bs, hs, hbs⟩
      · exact absurd (has ▸ by simp) hevs
      · cases bs with
        | nil =>
          rw [List.nil_append] at hbs
          exact absurd (hbs ▸ List.mem_cons_self) hevs
        | cons b bs =>
          obtain ⟨rfl, -⟩ := List.cons.inj (hbs.trans (List.cons_append ..))
          exact h.chained pre bs hs

theorem Protocol.after (h : Protocol s) (ks : List GatewayStep) : Protocol (s.after ks) :=
  Transition.run_of_invariant (fun _ k h => h.step k) h

/-- **Every request for a reset is answered, and nothing else makes a new client.** In every run,
whatever the order of the threads' steps: after a request the client is iterated at most once
more, between two clients there was a request, and the counter of resets is one less than the
number of clients. -/
theorem resets_answered (ks : List GatewayStep) :
    (∀ pre mid post, (start.after ks).log = pre ++ .resetIssued :: (mid ++ post) →
      .constructed ∉ mid → iterations mid ≤ 1) ∧
    (∀ pre mid post,
      (start.after ks).log = pre ++ .constructed :: (mid ++ .constructed :: post) →
      .constructed ∉ mid → .resetIssued ∈ mid) ∧
    ((start.after ks).point.hasClient = true →
      constructions (start.after ks).log = (start.after ks).resetCounter + 1) := by
  have h : Protocol (start.after ks) := protocol_start.after ks
  refine ⟨fun pre mid post heq hmid => ?_, fun pre mid post heq hmid => ?_, fun hclient => ?_⟩
  · have hmarks : ∀ e ∈ GatewayEvent.resetIssued :: mid, ¬ e = .constructed := by
      rintro e he rfl
      exact hmid (by simpa using he)
    exact h.answered pre (.resetIssued :: mid) post heq hmarks [] mid rfl
  · have hpre : (start.after ks).log = (pre ++ .constructed :: mid) ++ .constructed :: post := by
      rw [heq]
      simp
    have hsession : session (pre ++ .constructed :: mid) = mid := by
      rw [List.append_cons, Requests.session_append hmid, Requests.session_construct,
        List.nil_append]
    rcases h.chained _ _ hpre with hnot | hmem
    · exact absurd (by simp) hnot
    · rwa [hsession] at hmem
  · exact (h.requests.last hclient).constructions

end Gateway

end UmatiDashboard
