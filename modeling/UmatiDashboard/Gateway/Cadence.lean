import Mathlib.Data.List.Pairwise
import UmatiDashboard.Gateway.ResetProtocol

/-!
# How often the gateway publishes

`Iterate` is called as often as the stack returns, and compares the time with that of the last
publication and of the last verification. The spans are cut off to whole milliseconds before they
are compared, so a span of 900 ms is short and one of 901 ms is not. As long as a machine observer
is in use, its publications are at least that far apart, and its lists of machines thirty times as
far, whatever the clock shows in between (`publications_spaced`).
-/

namespace UmatiDashboard

namespace Gateway

open EventLog

/-! ### Spaced times -/

/-- Every time is at least `span` after each one before it. -/
def Spaced (span : ℤ) (times : List ℤ) : Prop := times.Pairwise fun t t' => t + span ≤ t'

section Spaced

variable {span now : ℤ} {times : List ℤ}

theorem spaced_concat (h : Spaced span times) (hnow : ∀ t ∈ times, t + span ≤ now) :
    Spaced span (times ++ [now]) := by
  refine List.pairwise_append.mpr ⟨h, List.pairwise_singleton _ _, fun t ht t' ht' => ?_⟩
  rw [List.mem_singleton.mp ht']
  exact hnow t ht

theorem le_of_mem_concat (hspan : 0 ≤ span) (hnow : ∀ t ∈ times, t + span ≤ now) :
    ∀ t ∈ times ++ [now], t ≤ now := by
  intro t ht
  rcases List.mem_append.mp ht with ht | ht
  · have hle := hnow t ht
    omega
  · exact Int.le_of_eq (List.mem_singleton.mp ht)

/-- A span that is more than `n` milliseconds after it was cut off. -/
theorem lt_milliseconds {n : ℤ} (hn : 0 ≤ n) (h : milliseconds span > n) :
    (n + 1) * 1000000 ≤ span := by
  have hpos : 0 ≤ span := by
    by_contra hneg
    have hle : 0 ≤ (-span).tdiv 1000000 := Int.tdiv_nonneg (by omega) (by decide)
    rw [Int.neg_tdiv] at hle
    have hgt : span.tdiv 1000000 > n := h
    omega
  have hdiv : span / 1000000 > n := by
    rw [← Int.tdiv_eq_ediv_of_nonneg hpos]
    exact h
  omega

end Spaced

/-! ### The times of a log -/

def isObserverStarted : GatewayEvent → Bool
  | .observerStarted _ => true
  | _ => false

/-- The events since the observer in use was started. -/
abbrev watch (log : List GatewayEvent) : List GatewayEvent := since (isObserverStarted · = true) log

def publishTime? : GatewayEvent → Option ℤ
  | .published now => some now
  | _ => none

def listsTime? : GatewayEvent → Option ℤ
  | .listsPublished now => some now
  | _ => none

def verifyTime? : GatewayEvent → Option ℤ
  | .verified now _ => some now
  | _ => none

/-- When an observer has published, when it has published its lists of machines, and when the
connection was verified. -/
structure Times where
  published : List ℤ
  lists : List ℤ
  verified : List ℤ

def times (es : List GatewayEvent) : Times :=
  ⟨es.filterMap publishTime?, es.filterMap listsTime?, es.filterMap verifyTime?⟩

section Log

variable (es : List GatewayEvent) (now : ℤ)

theorem times_published : times (es ++ [.published now]) =
    { times es with published := (times es).published ++ [now] } := by
  simp [times, publishTime?, listsTime?, verifyTime?]

theorem times_listsPublished : times (es ++ [.listsPublished now]) =
    { times es with lists := (times es).lists ++ [now] } := by
  simp [times, publishTime?, listsTime?, verifyTime?]

theorem times_verified (ok : Bool) : times (es ++ [.verified now ok]) =
    { times es with verified := (times es).verified ++ [now] } := by
  simp [times, publishTime?, listsTime?, verifyTime?]

/-- The event has no time, and the observer stays in use. -/
def IsTimeless (e : GatewayEvent) : Prop := isObserverStarted e = false ∧ times [e] = times []

theorem times_timeless {e : GatewayEvent} (h : IsTimeless e) : times (es ++ [e]) = times es := by
  have hnil := h.2
  simp only [times, Times.mk.injEq, List.filterMap_nil] at hnil
  simp only [times, List.filterMap_append, hnil, List.append_nil]

end Log

/-! ### What the timers ensure -/

/-- The shortest span between two publications, in nanoseconds. -/
def publishSpan : ℤ := 901000000

/-- The shortest span between two verifications. -/
def verifySpan : ℤ := 30001000000

/-- The times of one observer. -/
structure Times.Timed (ts : Times) : Prop where
  published : Spaced publishSpan ts.published
  lists : Spaced (30 * publishSpan) ts.lists
  verified : Spaced verifySpan ts.verified

theorem hereditary_timed : Hereditary fun es => (times es).Timed := by
  intro es es' h ht
  exact ⟨ht.published.sublist (h.sublist.filterMap _), ht.lists.sublist (h.sublist.filterMap _),
    ht.verified.sublist (h.sublist.filterMap _)⟩

theorem timed_nil : (times []).Timed :=
  ⟨List.Pairwise.nil, List.Pairwise.nil, List.Pairwise.nil⟩

/-- The timers `p` and `v` and the counter `n` of an observer agree with what it has done. -/
structure Times.Clocked (ts : Times) (p v : ℤ) (n : ℕ) : Prop where
  timed : ts.Timed
  published : ∀ t ∈ ts.published, t ≤ p
  lists : ∀ t ∈ ts.lists, t + n * publishSpan ≤ p
  verified : ∀ t ∈ ts.verified, t ≤ v
  counted : ts.published.length = 30 * ts.lists.length + n

theorem clocked_nil (p v : ℤ) : (times []).Clocked p v 0 where
  timed := timed_nil
  published t ht := by cases ht
  lists t ht := by cases ht
  verified t ht := by cases ht
  counted := rfl

namespace Times.Clocked

variable {ts : Times} {p v now : ℤ} {n : ℕ}

/-- The dashboard clients have published, and the counter was increased. -/
theorem publish (h : ts.Clocked p v n) (hdue : p + publishSpan ≤ now) :
    Times.Clocked { ts with published := ts.published ++ [now] } now v (n + 1) := by
  have hnow : ∀ t ∈ ts.published, t + publishSpan ≤ now := by
    intro t ht
    have hle := h.published t ht
    omega
  refine ⟨⟨spaced_concat h.timed.published hnow, h.timed.lists, h.timed.verified⟩,
    le_of_mem_concat (by decide) hnow, fun t ht => ?_, h.verified, ?_⟩
  · have hle := h.lists t ht
    push_cast
    rw [Int.add_mul]
    omega
  · rw [List.length_append, h.counted]
    exact Nat.add_assoc _ _ _

/-- The lists were published, in the thirtieth round. -/
theorem publishLists (h : ts.Clocked now v 30) :
    Times.Clocked { ts with lists := ts.lists ++ [now] } now v 0 := by
  have hlists : ∀ t ∈ ts.lists, t + 30 * publishSpan ≤ now := h.lists
  refine ⟨⟨h.timed.published, spaced_concat h.timed.lists hlists, h.timed.verified⟩, h.published,
    fun t ht => ?_, h.verified, ?_⟩
  · have hle := le_of_mem_concat (by decide) hlists t ht
    omega
  · rw [List.length_append, h.counted]
    exact (Nat.mul_add 30 _ 1).symm

/-- The connection was verified. -/
theorem verify (h : ts.Clocked p v n) (hdue : v + verifySpan ≤ now) :
    Times.Clocked { ts with verified := ts.verified ++ [now] } p now n := by
  have hnow : ∀ t ∈ ts.verified, t + verifySpan ≤ now := by
    intro t ht
    have hle := h.verified t ht
    omega
  exact ⟨⟨h.timed.published, h.timed.lists, spaced_concat h.timed.verified hnow⟩, h.published,
    h.lists, le_of_mem_concat (by decide) hnow, h.counted⟩

end Times.Clocked

/-! ### The invariant -/

/-- The times of the observer in use. -/
def observed (s : Gateway) : Times := times (watch s.log)

/-- The observer in use keeps its timers and its counter, until an exception ends the program. -/
structure OnTime (s : Gateway) : Prop where
  segments : EachSegment (isObserverStarted · = true) (fun es => (times es).Timed) s.log
  timed : (observed s).Timed
  clocked : s.point.isFinal = true ∨
    (observed s).Clocked s.lastPublish s.lastConnectionVerify s.publishMachinesOnline ∧
      s.publishMachinesOnline < 30

theorem onTime_start : OnTime start :=
  ⟨eachSegment_nil timed_nil, timed_nil, .inr ⟨clocked_nil 0 0, by decide⟩⟩

section Steps

variable {s : Gateway} {a : MainAnswers}

theorem observed_record {e : GatewayEvent} (he : isObserverStarted e = false) (s : Gateway) :
    observed (s.record e) = times (watch s.log ++ [e]) := by
  rw [observed, record, watch, since_concat_of_not (by simp [he])]

/-- The segments of the log, after an event whose time fits the others. -/
theorem OnTime.segments_record (h : OnTime s) {e : GatewayEvent}
    (ht : (observed (s.record e)).Timed) :
    EachSegment (isObserverStarted · = true) (fun es => (times es).Timed) (s.record e).log :=
  h.segments.concat hereditary_timed ht

theorem OnTime.goto {point : MainPoint} (h : OnTime s)
    (hpoint : s.point.isFinal = true → point.isFinal = true) : OnTime (s.goto point) :=
  ⟨h.segments, h.timed, h.clocked.imp hpoint id⟩

theorem OnTime.record (h : OnTime s) {e : GatewayEvent} (he : IsTimeless e) :
    OnTime (s.record e) := by
  have hobserved : observed (s.record e) = observed s := by
    rw [observed_record he.1, times_timeless _ he, observed]
  refine ⟨h.segments_record (hobserved ▸ h.timed), hobserved ▸ h.timed, ?_⟩
  rw [hobserved]
  exact h.clocked

/-- `PublishAll`, called late enough. -/
theorem OnTime.publishAll (h : OnTime s) (hpoint : s.point.isFinal = false)
    (hdue : s.lastPublish + publishSpan ≤ a.now) :
    OnTime ({ s with lastPublish := a.now }.publishAll a) := by
  obtain ⟨hclocked, hlt⟩ := h.clocked.resolve_left (by simp [hpoint])
  have hpub : (observed (s.record (.published a.now))).Clocked a.now s.lastConnectionVerify
      (s.publishMachinesOnline + 1) := by
    rw [observed_record rfl, times_published]
    exact hclocked.publish hdue
  have hsegments := h.segments_record hpub.timed
  unfold Gateway.publishAll
  split
  · -- publishing a dashboard client threw
    exact ⟨h.segments, h.timed, .inl rfl⟩
  dsimp only
  split_ifs with hthirty
  · have hlast : s.publishMachinesOnline + 1 = 30 := by
      have hge : s.publishMachinesOnline + 1 ≥ 30 := hthirty
      omega
    split
    · exact ⟨hsegments, hpub.timed, .inl rfl⟩
    have hlists : (observed ((s.record (.published a.now)).record
        (.listsPublished a.now))).Clocked a.now s.lastConnectionVerify 0 := by
      rw [observed_record rfl, times_listsPublished]
      rw [hlast] at hpub
      exact hpub.publishLists
    exact ⟨hsegments.concat hereditary_timed hlists.timed, hlists.timed,
      .inr ⟨hlists, (by decide : (0 : ℕ) < 30)⟩⟩
  · exact ⟨hsegments, hpub.timed, .inr ⟨hpub, Nat.lt_of_not_le hthirty⟩⟩

theorem OnTime.verifyConnection (h : OnTime s) (hpoint : s.point.isFinal = false)
    (hdue : s.lastConnectionVerify + verifySpan ≤ a.now) :
    OnTime ({ s with lastConnectionVerify := a.now }.verifyConnection a) := by
  obtain ⟨hclocked, hlt⟩ := h.clocked.resolve_left (by simp [hpoint])
  have hver : (observed (s.record (.verified a.now a.verifyConnection))).Clocked s.lastPublish
      a.now s.publishMachinesOnline := by
    rw [observed_record rfl, times_verified]
    exact hclocked.verify hdue
  have hrecord : OnTime ({ s with lastConnectionVerify := a.now }.record
      (.verified a.now a.verifyConnection)) :=
    ⟨h.segments_record hver.timed, hver.timed, .inr ⟨hver, hlt⟩⟩
  unfold Gateway.verifyConnection
  dsimp only
  split_ifs
  · exact hrecord
  · have hissued := hrecord.record (e := .resetIssued) ⟨rfl, rfl⟩
    exact ⟨hissued.segments, hissued.timed, hissued.clocked⟩

/-- **Iterating keeps the observer on time**, whatever the clock shows. -/
theorem OnTime.iterate (h : OnTime s) (a : MainAnswers) (hpoint : s.point.isFinal = false) :
    OnTime (s.iterate a) := by
  have hbegin : OnTime ((s.record (.iterating a.now)).goto .runningCheck) :=
    (h.record ⟨rfl, rfl⟩).goto (by simp [Gateway.record, hpoint])
  have hpublish : OnTime (((s.record (.iterating a.now)).goto .runningCheck).publishIfDue a) := by
    unfold publishIfDue
    split_ifs with hdue
    · refine hbegin.publishAll rfl ?_
      have hlt := lt_milliseconds (by decide) hdue
      rw [publishSpan]
      omega
    · exact hbegin
  unfold Gateway.iterate
  dsimp only
  split_ifs with hfinal
  · exact hpublish
  unfold verifyIfDue
  split_ifs with hdue
  · refine hpublish.verifyConnection (by simpa using hfinal) ?_
    have hlt := lt_milliseconds (by decide) hdue
    rw [verifySpan]
    omega
  · exact hpublish

/-- Another machine observer begins with a fresh log. -/
theorem OnTime.startMachineObserver (h : OnTime s) (now later : ℤ) :
    OnTime ({ s.record (.observerStarted now) with
      lastPublish := now
      lastConnectionVerify := later
      publishMachinesOnline := 0 }.goto .runningCheck) := by
  have hwatch : watch (s.log ++ [.observerStarted now]) = [] := since_concat_of_mark rfl
  have hlast : (times (watch (s.log ++ [.observerStarted now]))).Timed := by
    rw [hwatch]
    exact timed_nil
  refine ⟨h.segments.concat hereditary_timed hlast, hlast, .inr ⟨?_, (by decide : (0 : ℕ) < 30)⟩⟩
  change (times (watch (s.log ++ [.observerStarted now]))).Clocked now later 0
  rw [hwatch]
  exact clocked_nil now later

/-! ### Every run -/

theorem OnTime.mainStep (h : OnTime s) (a : MainAnswers) : OnTime (s.mainStep a) := by
  unfold Gateway.mainStep
  split
  case h_1 hpoint => exact h.goto (by simp [hpoint, MainPoint.isFinal])
  case h_2 hpoint =>
    split_ifs
    · exact ⟨h.segments, h.timed, h.clocked.imp (by simp [hpoint, MainPoint.isFinal]) id⟩
    · exact h.goto (by simp [hpoint, MainPoint.isFinal])
  case h_3 hpoint =>
    exact ⟨h.segments, h.timed, h.clocked.imp (by simp [hpoint, MainPoint.isFinal]) id⟩
  case h_4 hpoint =>
    exact (h.record ⟨rfl, rfl⟩).goto (by simp [Gateway.record, hpoint, MainPoint.isFinal])
  case h_5 hpoint => exact h.goto (by simp [hpoint, MainPoint.isFinal])
  case h_6 hpoint => exact h.goto (by simp [hpoint, MainPoint.isFinal])
  case h_7 hpoint =>
    split
    · exact (h.record ⟨rfl, rfl⟩).goto (by simp [Gateway.record, hpoint, MainPoint.isFinal])
    · split_ifs
      · exact h.record ⟨rfl, rfl⟩
      · exact h.goto fun _ => rfl
  case h_8 => exact h.startMachineObserver a.now a.later
  case h_9 hpoint => exact h.goto (by simp [hpoint, MainPoint.isFinal])
  case h_10 hpoint => exact h.goto (by simp [hpoint, MainPoint.isFinal])
  case h_11 hpoint => exact h.iterate a (by simp [hpoint, MainPoint.isFinal])
  all_goals exact h

theorem OnTime.step (h : OnTime s) (k : GatewayStep) : OnTime (s.step k) := by
  cases k with
  | stop =>
    have hstopped := h.record (e := .stopped) ⟨rfl, rfl⟩
    exact ⟨hstopped.segments, hstopped.timed, hstopped.clocked⟩
  | issueReset =>
    unfold Gateway.step
    dsimp only
    split_ifs
    · have hissued := h.record (e := .resetIssued) ⟨rfl, rfl⟩
      exact ⟨hissued.segments, hissued.timed, hissued.clocked⟩
    · exact h
  | main a => exact h.mainStep a

theorem onTime_after (ks : List GatewayStep) : OnTime (start.after ks) :=
  Transition.run_of_invariant (fun _ k h => h.step k) onTime_start

end Steps

/-- **How often a machine observer publishes.** Between two starts of an observer the
publications, the publications of the lists and the verifications of the connection keep their
distances; and of the publications of the observer in use, every thirtieth was followed by one of
the lists. -/
theorem publications_spaced (ks : List GatewayStep) :
    EachSegment (isObserverStarted · = true) (fun es => (times es).Timed) (start.after ks).log ∧
      ((start.after ks).point.isFinal = false →
        (observed (start.after ks)).lists.length =
          (observed (start.after ks)).published.length / 30) := by
  have h := onTime_after ks
  refine ⟨h.segments, fun hpoint => ?_⟩
  obtain ⟨hclocked, hlt⟩ := h.clocked.resolve_left (by simp [hpoint])
  have hcounted := hclocked.counted
  omega

end Gateway

end UmatiDashboard
