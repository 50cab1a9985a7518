import Mathlib.Order.Filter.Finite
import UmatiDashboard.OpcUaClient.SuperTypeClimb

/-!
# How a failed service call ends

The stack answers a service call that failed with a bad service result, and then the list of
results is often empty. An operation **surfaces** its response if it stays inside of the lists it
was given, and ends in an exception when the service call failed.

No operation looks at the service result. Whether a response is surfaced hangs on the other
things the operation looks at; `surfaces_iff_answered` says on which, operation by operation.
-/

namespace UmatiDashboard

/-! ### Failed service calls -/

section Failed

variable {κ δ : Type}

/-- The service call failed, as a whole or for the node that was asked for. -/
def UaBrowseResponse.Failed (response : UaBrowseResponse κ) : Prop :=
  isBadStatus response.serviceResult ∨
    ∃ first ∈ response.results.head?, isBadStatus first.statusCode

/-- The class of the node could not be read, or its supertype not be browsed. -/
def UaTypeAnswers.Failed (answers : UaTypeAnswers κ) (isConnected : Bool) : Prop :=
  answers.Connected isConnected ∧ (answers.nodeClass = none ∨
    ServiceClient.isTypeClass answers.nodeClass = true ∧ answers.response.Failed)

def UaTranslateResponse.Failed (response : UaTranslateResponse κ) : Prop :=
  isBadStatus response.serviceResult ∨
    ∃ first ∈ response.results.head?, isBadStatus first.statusCode

def UaReadResponse.Failed (response : UaReadResponse δ) : Prop :=
  isBadStatus response.serviceResult ∨ ∃ first ∈ response.results.head?, isBadStatus first.status

/-- A Browse with a first result that is not bad failed if its service result is bad. -/
theorem UaTypeAnswers.failed_iff {answers : UaTypeAnswers κ} {isConnected : Bool}
    (h : ¬ answers.Refused isConnected) :
    answers.Failed isConnected ↔ isBadStatus answers.response.serviceResult = true := by
  rw [Refused, Classical.not_imp] at h
  obtain ⟨⟨hconnected, htype⟩, hfirst⟩ := h
  have hclass : answers.nodeClass ≠ none := by
    intro hnone
    rw [hnone] at htype
    cases htype
  rw [Failed, UaBrowseResponse.Failed, or_iff_left hfirst]
  simp [hconnected, htype, hclass]

/-- There is an answer, and it does not say that something failed. -/
theorem UaTypeAnswers.not_unanswered_and_not_failed_iff {answers : UaTypeAnswers κ}
    {isConnected : Bool} :
    ¬ answers.Unanswered isConnected ∧ ¬ answers.Failed isConnected ↔
      (answers.Connected isConnected → answers.nodeClass ≠ none ∧
        (ServiceClient.isTypeClass answers.nodeClass = true →
          (∃ first ∈ answers.response.results.head?, isBadStatus first.statusCode = false) ∧
            isBadStatus answers.response.serviceResult = false)) := by
  rw [Unanswered, Browsed, Failed, UaBrowseResponse.Failed]
  by_cases hconnected : answers.Connected isConnected
  · by_cases htype : ServiceClient.isTypeClass answers.nodeClass = true
    · cases hr : answers.response.results with
      | nil => simp [hconnected, htype]
      | cons first rest => simp [hconnected, htype]; tauto
    · simp [hconnected, htype]
  · simp [hconnected]

end Failed

/-- An operation stays inside of the lists of its response, and throws if the service call
failed. -/
def Outcome.Surfaces {α : Type} (failed : Prop) (o : Outcome Exception α) : Prop :=
  o ≠ .stuck .undefined ∧ (failed → ∃ e, o = .throw e)

namespace Outcome

variable {α : Type} {failed : Prop}

@[simp] theorem surfaces_ok (a : α) : (ok a : Outcome Exception α).Surfaces failed ↔ ¬ failed := by
  simp [Surfaces]

@[simp] theorem surfaces_throw (e : Exception) :
    (throw e : Outcome Exception α).Surfaces failed := by
  simp [Surfaces]

@[simp] theorem not_surfaces_undefined :
    ¬ (stuck .undefined : Outcome Exception α).Surfaces failed := by
  simp [Surfaces]

end Outcome

namespace ServiceClient

variable {χ κ δ α : Type} {statusName : UInt32 → String} {c s : ServiceClient χ κ}

/-! ### The references of a Browse response -/

section References

variable {filter : UaReferenceDescription κ → ServiceM χ κ Bool}
  {convert : UaReferenceDescription κ → Except Exception BrowseResult} {failed : Prop}

/-- What the references become, or how the first one ends that is neither dropped nor converted. -/
def collect (ends : UaReferenceDescription κ → Outcome Exception (List BrowseResult)) :
    List (UaReferenceDescription κ) → Outcome Exception (List BrowseResult)
  | [] => .ok []
  | ref :: refs =>
    match ends ref with
    | .ok entry =>
      match collect ends refs with
      | .ok entries => .ok (entry ++ entries)
      | o => o
    | o => o

/-- If a reference ends the same way in every state that the loop comes to, the loop collects. -/
theorem run_referenceDescriptionsToBrowseResults
    {ends : UaReferenceDescription κ → Outcome Exception (List BrowseResult)}
    (I : ServiceClient χ κ → Prop)
    (hI : ∀ ref s, I s →
      ((referenceDescriptionToBrowseResult filter convert ref).run s).1 = ends ref ∧
        ((ends ref).Returns → I ((referenceDescriptionToBrowseResult filter convert ref).run s).2))
    (refs : List (UaReferenceDescription κ)) (hs : I s) :
    ((referenceDescriptionsToBrowseResults filter convert refs).run s).1 = collect ends refs := by
  have hgeneral : ∀ browseResult : List BrowseResult,
      ((Prog.foldEach (fun browseResult ref => do
        let entry ← referenceDescriptionToBrowseResult filter convert ref
        pure (browseResult ++ entry)) browseResult refs).run s).1 =
          match collect ends refs with
          | .ok entries => .ok (browseResult ++ entries)
          | o => o := by
    induction refs generalizing s with
    | nil =>
      intro browseResult
      simp [collect, Prog.run, pure]
    | cons ref refs ih =>
      intro browseResult
      obtain ⟨hend, hreturns⟩ := hI ref s hs
      obtain ⟨s', hrun⟩ : ∃ s', (referenceDescriptionToBrowseResult filter convert ref).run s =
          (ends ref, s') := ⟨_, Prod.ext hend rfl⟩
      rw [hrun] at hreturns
      rw [Prog.foldEach_cons, Prog.run_bind, Prog.run_bind, hrun, collect]
      cases ho : ends ref with
      | ok entry =>
        rw [ho] at hreturns
        refine (ih (hreturns trivial) (browseResult ++ entry)).trans ?_
        cases collect ends refs <;> simp
      | throw e => rfl
      | stuck w => rfl
  refine (hgeneral []).trans ?_
  cases collect ends refs <;> rfl

/-- The loop comes to a reference if those before it pass. -/
def Reached (Passes : UaReferenceDescription κ → Prop) (refs : List (UaReferenceDescription κ))
    (ref : UaReferenceDescription κ) : Prop :=
  ∃ before after, refs = before ++ ref :: after ∧ ∀ r ∈ before, Passes r

theorem Reached.mem {Passes : UaReferenceDescription κ → Prop}
    {refs : List (UaReferenceDescription κ)} {ref : UaReferenceDescription κ}
    (h : Reached Passes refs ref) : ref ∈ refs := by
  obtain ⟨before, after, rfl, -⟩ := h
  simp

theorem reached_cons {Passes : UaReferenceDescription κ → Prop}
    {refs : List (UaReferenceDescription κ)} {r ref : UaReferenceDescription κ} :
    Reached Passes (r :: refs) ref ↔ ref = r ∨ Passes r ∧ Reached Passes refs ref := by
  constructor
  · rintro ⟨before, after, heq, hall⟩
    rcases List.cons_eq_append_iff.mp heq with ⟨rfl, hcons⟩ | ⟨before', rfl, hrefs⟩
    · exact .inl (List.cons.inj hcons).1
    · exact .inr ⟨hall r List.mem_cons_self, before', after, hrefs,
        fun x hx => hall x (List.mem_cons_of_mem _ hx)⟩
  · rintro (rfl | ⟨hr, before, after, rfl, hall⟩)
    · exact ⟨[], refs, rfl, by simp⟩
    · exact ⟨r :: before, after, rfl, List.forall_mem_cons.mpr ⟨hr, hall⟩⟩

theorem reached_congr {P Q : UaReferenceDescription κ → Prop}
    {refs : List (UaReferenceDescription κ)} (h : ∀ r ∈ refs, (P r ↔ Q r))
    {ref : UaReferenceDescription κ} : Reached P refs ref ↔ Reached Q refs ref := by
  refine exists₂_congr fun before after => and_congr_right ?_
  rintro rfl
  exact forall₂_congr fun r hr => h r (List.mem_append_left _ hr)

/-- The loop ends in a way other than returning with a reference that it comes to. -/
theorem collect_eq_iff {ends : UaReferenceDescription κ → Outcome Exception (List BrowseResult)}
    {o : Outcome Exception (List BrowseResult)} (ho : ¬ o.Returns) :
    ∀ {refs : List (UaReferenceDescription κ)},
      collect ends refs = o ↔ ∃ ref, Reached (fun r => (ends r).Returns) refs ref ∧ ends ref = o
  | [] => by
    constructor
    · rintro rfl
      exact absurd trivial ho
    · rintro ⟨ref, hreached, -⟩
      exact absurd hreached.mem List.not_mem_nil
  | r :: refs => by
    have ih : collect ends refs = o ↔
        ∃ ref, Reached (fun r => (ends r).Returns) refs ref ∧ ends ref = o :=
      collect_eq_iff ho
    simp only [reached_cons, or_and_right, exists_or, exists_eq_left]
    rw [collect]
    cases hr : ends r with
    | ok entry =>
      have hne : Outcome.ok entry ≠ o := by
        rintro rfl
        exact ho trivial
      simp only [Outcome.returns_ok, true_and, hne, false_or, ← ih]
      cases collect ends refs with
      | ok entries =>
        refine iff_of_false ?_ ?_
        · rintro rfl
          exact ho trivial
        · rintro rfl
          exact ho trivial
      | throw e => exact Iff.rfl
      | stuck w => exact Iff.rfl
    | throw e => simp
    | stuck w => simp

/-- How a reference ends that is converted. -/
def convertedEnd (convert : UaReferenceDescription κ → Except Exception BrowseResult)
    (ref : UaReferenceDescription κ) : Outcome Exception (List BrowseResult) :=
  match convert ref with
  | .ok entry => .ok [entry]
  | .error e => .throw e

/-- How a reference ends that is filtered by its type. -/
def filteredEnd [DecidableEq κ] (statusName : UInt32 → String) (answers : κ → UaTypeAnswers κ)
    (c : ServiceClient χ κ) (expectedType : Option κ)
    (convert : UaReferenceDescription κ → Except Exception BrowseResult) (fuel : ℕ)
    (ref : UaReferenceDescription κ) : Outcome Exception (List BrowseResult) :=
  match climbEnd statusName answers c expectedType fuel ref.typeDefinition with
  | .ok true => convertedEnd convert ref
  | .ok false => .ok []
  | .throw e => .throw e
  | .stuck w => .stuck w

/-- Handling the continuation point does nothing. -/
@[simp] theorem bind_handleContinuationPoint (p : ServiceM χ κ α) (continuationPoint : List UInt8) :
    (p >>= fun a => handleContinuationPoint continuationPoint >>= fun _ => pure a) = p := by
  funext s
  simp only [bind, handleContinuationPoint, pure]
  rcases p s with ⟨a | e | w, s'⟩ <;> rfl

/-- Before the references an operation can only throw. -/
theorem surfaces_browseWithContextAndFilter {prepared : Except Exception Unit}
    {sessionIsConnected : Bool} {response : UaBrowseResponse κ} :
    ((browseWithContextAndFilter statusName prepared sessionIsConnected response filter
        convert).run c).1.Surfaces failed ↔
      (prepared = .ok () → c.isConnected = true ∧ sessionIsConnected = true →
        (∀ first ∈ response.results.head?, isBadStatus first.statusCode = false) →
        ((referenceDescriptionsToBrowseResults filter convert
          response.references).run c).1.Surfaces failed) := by
  rw [← Prog.ends_iff_run (Q := fun o _ => o.Surfaces failed)]
  cases prepared with
  | error e => simp [browseWithContextAndFilter]
  | ok u =>
    simp only [browseWithContextAndFilter, bind_handleContinuationPoint, Prog.ends_bind,
      ends_lift_ok, Outcome.follow_ok, Outcome.follow_throw, ends_verifyConnected,
      Outcome.surfaces_throw, implies_true, and_true, forall_const]
    refine imp_congr_right fun _ => ?_
    have hloop := Prog.ends_iff_run (s := c) (Q := fun o _ => o.Surfaces failed)
      (p := referenceDescriptionsToBrowseResults filter convert response.references)
    cases hr : response.results with
    | nil => simpa [throwIfFirstBad] using hloop
    | cons first rest =>
      cases hb : isBadStatus first.statusCode with
      | true => simp [throwIfFirstBad, ends_throwIfBad, hb]
      | false => simpa [throwIfFirstBad, ends_throwIfBad, hb] using hloop

end References

/-! ### The operations -/

section Operations

/-- Converting a list fails exactly when converting an element does. -/
private theorem mapM_error_iff {β : Type} {f : α → Except Exception β} (l : List α) :
    (∃ e, l.mapM f = .error e) ↔ ∃ a ∈ l, ∃ e, f a = .error e := by
  induction l with
  | nil => simp [pure, Except.pure]
  | cons a l ih =>
    rw [List.mapM_cons]
    cases ha : f a with
    | error e => simp [ha, bind, Except.bind]
    | ok b =>
      have htail : (∃ e, l.mapM f = .error e) ↔
          ∃ e, ((Except.ok b : Except Exception β) >>= fun r => do
            let rs ← l.mapM f
            pure (r :: rs)) = .error e := by
        cases l.mapM f with
        | error e => simp [bind, Except.bind]
        | ok bs => simp [bind, Except.bind, pure, Except.pure]
      rw [← htail, ih]
      simp [ha]

/-- A conversion at the end of an operation throws whatever has happened before. -/
private theorem surfaces_lift {failed : Prop} (r : Except Exception α) :
    (lift r).Ends c (fun o _ => o.Surfaces failed) ↔ (failed → ∃ e, r = .error e) := by
  cases r with
  | error e => simp
  | ok a => simp

/-- Without a bad first result the service call failed as a whole. -/
private theorem failed_iff {response : UaBrowseResponse κ}
    (h : ∀ first ∈ response.results.head?, isBadStatus first.statusCode = false) :
    response.Failed ↔ isBadStatus response.serviceResult = true := by
  refine ⟨fun hfailed => hfailed.resolve_right ?_, Or.inl⟩
  rintro ⟨first, hfirst, hbad⟩
  simp [h first hfirst] at hbad

/-- A reference that is not filtered is converted. -/
theorem run_unfiltered {convert : UaReferenceDescription κ → Except Exception BrowseResult}
    {ref : UaReferenceDescription κ} (s : ServiceClient χ κ) :
    (∀ entry, convert ref = .ok entry →
      (referenceDescriptionToBrowseResult (fun _ => pure true) convert ref).run s =
        (.ok [entry], s)) ∧
      ∀ e, convert ref = .error e →
        (referenceDescriptionToBrowseResult (fun _ => pure true) convert ref).run s =
          (.throw e, s) := by
  constructor
  · intro entry hentry
    simp [referenceDescriptionToBrowseResult, hentry, Prog.run, lift, Prog.call, bind, pure]
  · intro e he
    simp [referenceDescriptionToBrowseResult, he, Prog.run, lift, Prog.call, bind, pure]

theorem unfiltered_end {convert : UaReferenceDescription κ → Except Exception BrowseResult}
    (ref : UaReferenceDescription κ) (s : ServiceClient χ κ) :
    ((referenceDescriptionToBrowseResult (fun _ => pure true) convert ref).run s).1 =
      convertedEnd convert ref := by
  rw [convertedEnd]
  cases hconvert : convert ref with
  | ok entry => rw [(run_unfiltered s).1 _ hconvert]
  | error e => rw [(run_unfiltered s).2 _ hconvert]

/-- If nothing is dropped, the references become their conversions. -/
theorem collect_convertedEnd (convert : UaReferenceDescription κ → Except Exception BrowseResult)
    (refs : List (UaReferenceDescription κ)) :
    collect (convertedEnd convert) refs = .ofExcept (refs.mapM convert) := by
  induction refs with
  | nil => rfl
  | cons ref refs ih =>
    rw [collect, ih, convertedEnd, List.mapM_cons]
    cases convert ref with
    | error e => rfl
    | ok entry => cases refs.mapM convert <;> rfl

theorem surfaces_browse (prepared : Except Exception Unit) (sessionIsConnected : Bool)
    (response : UaBrowseResponse κ)
    (convert : UaReferenceDescription κ → Except Exception BrowseResult) :
    ((browse statusName prepared sessionIsConnected response convert).run c).1.Surfaces
        response.Failed ↔
      (prepared = .ok () → c.isConnected = true ∧ sessionIsConnected = true →
        (∀ first ∈ response.results.head?, isBadStatus first.statusCode = false) →
        isBadStatus response.serviceResult = true →
        ∃ ref ∈ response.references, ∃ e, convert ref = .error e) := by
  rw [browse, surfaces_browseWithContextAndFilter]
  refine imp_congr_right fun _ => imp_congr_right fun _ => imp_congr_right fun hfirst => ?_
  rw [run_referenceDescriptionsToBrowseResults (fun _ => True)
    (fun ref s _ => ⟨unfiltered_end ref s, fun _ => trivial⟩) response.references trivial,
    collect_convertedEnd, failed_iff hfirst, ← mapM_error_iff]
  cases response.references.mapM convert <;> simp [Outcome.ofExcept]

/-! ### References that are filtered by their type -/

section Filtered

variable (answers : κ → UaTypeAnswers κ) (c : ServiceClient χ κ) (expectedType : Option κ)
  (convert : UaReferenceDescription κ → Except Exception BrowseResult)

/-- The reference is dropped, or it is kept and can be converted. -/
def Passes (ref : UaReferenceDescription κ) : Prop :=
  c.Misses answers expectedType ref.typeDefinition ∨
    c.Meets answers expectedType ref.typeDefinition ∧ ∃ entry, convert ref = .ok entry

/-- The type of the reference cannot be told, or the reference is kept and cannot be converted. -/
def Throws (ref : UaReferenceDescription κ) : Prop :=
  c.IsRefused answers expectedType ref.typeDefinition ∨
    c.Meets answers expectedType ref.typeDefinition ∧ ∃ e, convert ref = .error e

variable {answers c expectedType convert} [DecidableEq κ]

/-- A reference that is filtered by its type ends alike for clients that agree. -/
theorem Agrees.filtered_end {fuel : ℕ} {ref : UaReferenceDescription κ}
    (hs : Agrees statusName answers c s) :
    ((referenceDescriptionToBrowseResult (fun ref => ServiceClient.isSameOrSubtype statusName
        answers fuel expectedType ref.typeDefinition) convert ref).run s).1 =
        filteredEnd statusName answers c expectedType convert fuel ref ∧
      ((filteredEnd statusName answers c expectedType convert fuel ref).Returns →
        Agrees statusName answers c ((referenceDescriptionToBrowseResult (fun ref =>
          ServiceClient.isSameOrSubtype statusName answers fuel expectedType ref.typeDefinition)
            convert ref).run s).2) := by
  obtain ⟨hend, hagrees⟩ := hs.run_isSameOrSubtype answers expectedType fuel ref.typeDefinition 100
  unfold filteredEnd referenceDescriptionToBrowseResult
  simp only [Prog.run_bind]
  generalize (ServiceClient.isSameOrSubtype statusName answers fuel expectedType
    ref.typeDefinition).run s = r at hend hagrees ⊢
  obtain ⟨o, s₁⟩ := r
  rw [← show o = climbEnd statusName answers c expectedType fuel ref.typeDefinition from hend]
    at hagrees ⊢
  cases o with
  | ok kept =>
    have hs₁ : Agrees statusName answers c s₁ := hagrees trivial
    cases kept with
    | false => exact ⟨rfl, fun _ => hs₁⟩
    | true =>
      rw [convertedEnd]
      cases hconvert : convert ref with
      | ok entry => simpa [Prog.run, lift, Prog.call, bind, pure] using hs₁
      | error e => simp [Prog.run, lift, Prog.call, bind]
  | throw e => exact ⟨rfl, fun h => h.elim⟩
  | stuck w => exact ⟨rfl, fun h => h.elim⟩

/-- A reference becomes nothing if it is of another type. -/
theorem filteredEnd_eq_nil_iff {fuel : ℕ} {ref : UaReferenceDescription κ} :
    filteredEnd statusName answers c expectedType convert fuel ref = .ok [] ↔
      climbEnd statusName answers c expectedType fuel ref.typeDefinition = .ok false := by
  rw [filteredEnd, convertedEnd]
  rcases climbEnd statusName answers c expectedType fuel ref.typeDefinition with
    ⟨_ | _⟩ | e | w
  · simp
  · cases convert ref <;> simp
  · simp
  · simp

variable (statusName answers c expectedType convert) in
/-- How a reference ends, with fuel enough. -/
theorem eventually_filteredEnd (ref : UaReferenceDescription κ) :
    ∀ᶠ fuel in Filter.atTop,
      ((filteredEnd statusName answers c expectedType convert fuel ref).Returns ↔
        c.Passes answers expectedType convert ref) ∧
      ((∃ e, filteredEnd statusName answers c expectedType convert fuel ref = .throw e) ↔
        c.Throws answers expectedType convert ref) ∧
      (filteredEnd statusName answers c expectedType convert fuel ref = .stuck .undefined ↔
        c.IsUnanswered answers expectedType ref.typeDefinition) := by
  obtain ⟨hmeets, hmisses, hrefused, hunanswered⟩ :=
    eventually_climbEnd statusName c answers expectedType ref.typeDefinition
  filter_upwards [hmeets, hmisses, hrefused, hunanswered] with fuel h₁ h₂ h₃ h₄
  rw [Passes, Throws, ← h₁, ← h₂, ← h₃, ← h₄, filteredEnd, convertedEnd]
  rcases climbEnd statusName answers c expectedType fuel ref.typeDefinition with
    ⟨_ | _⟩ | e | w
  · simp
  · cases convert ref <;> simp
  · simp
  · simp

variable (statusName answers c expectedType convert) in
/-- How the loop over the references ends, with fuel enough. -/
theorem eventually_collect (refs : List (UaReferenceDescription κ)) :
    ∀ᶠ fuel in Filter.atTop,
      ((∃ e, collect (filteredEnd statusName answers c expectedType convert fuel) refs = .throw e) ↔
        ∃ ref, Reached (c.Passes answers expectedType convert) refs ref ∧
          c.Throws answers expectedType convert ref) ∧
      (collect (filteredEnd statusName answers c expectedType convert fuel) refs =
          .stuck .undefined ↔
        ∃ ref, Reached (c.Passes answers expectedType convert) refs ref ∧
          c.IsUnanswered answers expectedType ref.typeDefinition) := by
  have hall := (Filter.eventually_all_finite (List.finite_toSet refs)).mpr
    fun ref _ => eventually_filteredEnd statusName answers c expectedType convert ref
  filter_upwards [hall] with fuel hfuel
  -- the references that the loop comes to are those before which every one passes
  have hreached : ∀ ref, Reached
      (fun r => (filteredEnd statusName answers c expectedType convert fuel r).Returns) refs ref ↔
        Reached (c.Passes answers expectedType convert) refs ref :=
    fun ref => reached_congr fun r hr => (hfuel r hr).1
  constructor
  · constructor
    · rintro ⟨e, he⟩
      obtain ⟨ref, href, hend⟩ := (collect_eq_iff (Outcome.not_returns_throw e)).mp he
      have href := (hreached ref).mp href
      exact ⟨ref, href, (hfuel ref href.mem).2.1.mp ⟨e, hend⟩⟩
    · rintro ⟨ref, href, hthrows⟩
      obtain ⟨e, hend⟩ := (hfuel ref href.mem).2.1.mpr hthrows
      exact ⟨e, (collect_eq_iff (Outcome.not_returns_throw e)).mpr
        ⟨ref, (hreached ref).mpr href, hend⟩⟩
  · rw [collect_eq_iff (Outcome.not_returns_stuck _)]
    refine exists_congr fun ref => ?_
    rw [hreached]
    exact and_congr_right fun href => (hfuel ref href.mem).2.2

end Filtered

/-- Before the references the operation can only throw. -/
theorem surfaces_filtered [DecidableEq κ] {failed : Prop} (answers : κ → UaTypeAnswers κ)
    (fuel : ℕ) (typeDefinition : Except Exception (Option κ)) (typeIsConnected : Bool)
    (nodeClass : Option NodeClass) (prepared : Except Exception Unit) (sessionIsConnected : Bool)
    (response : UaBrowseResponse κ)
    (convert : UaReferenceDescription κ → Except Exception BrowseResult) :
    ((browseWithResultTypeFilter statusName answers fuel typeDefinition typeIsConnected nodeClass
      prepared sessionIsConnected response convert).run c).1.Surfaces failed ↔
      ∀ expectedType, typeDefinition = .ok expectedType →
        c.isConnected = true ∧ typeIsConnected = true → isTypeClass nodeClass = true →
        prepared = .ok () → c.isConnected = true ∧ sessionIsConnected = true →
        (∀ first ∈ response.results.head?, isBadStatus first.statusCode = false) →
        (collect (filteredEnd statusName answers c expectedType convert fuel)
          response.references).Surfaces failed := by
  rw [← Prog.ends_iff_run (Q := fun o _ => o.Surfaces failed)]
  simp only [browseWithResultTypeFilter, Prog.ends_bind, ends_lift, Outcome.follow_ok,
    Outcome.follow_throw, Outcome.surfaces_throw, implies_true, and_true, ends_verifyConnected,
    ends_throwIfNoType]
  refine forall₂_congr fun expectedType _ => imp_congr_right fun _ => imp_congr_right fun _ => ?_
  rw [Prog.ends_iff_run, surfaces_browseWithContextAndFilter,
    run_referenceDescriptionsToBrowseResults (Agrees statusName answers c)
      (fun ref s hs => hs.filtered_end) response.references ⟨rfl, fun _ => rfl⟩]

variable (statusName c) in
/-- What the loop over the references surfaces, with fuel enough. -/
theorem eventually_surfaces_collect [DecidableEq κ] (answers : κ → UaTypeAnswers κ)
    (expectedType : Option κ) (convert : UaReferenceDescription κ → Except Exception BrowseResult)
    (refs : List (UaReferenceDescription κ)) (failed : Prop) :
    ∀ᶠ fuel in Filter.atTop,
      (collect (filteredEnd statusName answers c expectedType convert fuel) refs).Surfaces
        (failed ∨ ∃ ref t, Reached (c.Passes answers expectedType convert) refs ref ∧
          c.Asks answers expectedType ref.typeDefinition t ∧ (answers t).Failed c.isConnected) ↔
      (∀ ref, Reached (c.Passes answers expectedType convert) refs ref →
        ¬ c.IsUnanswered answers expectedType ref.typeDefinition) ∧
      ((∃ ref, Reached (c.Passes answers expectedType convert) refs ref ∧
        c.Throws answers expectedType convert ref) ∨
      ¬ failed ∧ ∀ ref, Reached (c.Passes answers expectedType convert) refs ref →
        ∀ t, c.Asks answers expectedType ref.typeDefinition t →
          isBadStatus (answers t).response.serviceResult = false) := by
  filter_upwards [eventually_collect statusName answers c expectedType convert refs]
    with fuel hends
  rw [Outcome.Surfaces, hends.1, Ne, hends.2, not_exists]
  simp only [not_and]
  refine and_congr_right fun hanswered => ?_
  by_cases hthrow : ∃ ref, Reached (c.Passes answers expectedType convert) refs ref ∧
      c.Throws answers expectedType convert ref
  · simp [hthrow]
  · -- every supertype that is asked for is answered
    have hasked : ∀ ref, Reached (c.Passes answers expectedType convert) refs ref →
        ∀ t, c.Asks answers expectedType ref.typeDefinition t →
          ((answers t).Failed c.isConnected ↔
            isBadStatus (answers t).response.serviceResult = true) :=
      fun ref href t ht => UaTypeAnswers.failed_iff fun hrefused =>
        hthrow ⟨ref, href, .inl ⟨t, ht, hrefused⟩⟩
    simp only [hthrow, imp_false, false_or, not_or, not_exists, not_and]
    refine and_congr_right fun _ => forall_congr' fun ref => ?_
    constructor
    · intro h href t ht
      have hnot := h t href ht
      rwa [hasked ref href t ht, Bool.not_eq_true] at hnot
    · intro h t href ht
      rw [hasked ref href t ht, h href t ht]
      exact Bool.false_ne_true

theorem surfaces_browseWithResultTypeFilter [DecidableEq κ] (answers : κ → UaTypeAnswers κ)
    (typeDefinition : Except Exception (Option κ)) (typeIsConnected : Bool)
    (nodeClass : Option NodeClass) (prepared : Except Exception Unit) (sessionIsConnected : Bool)
    (response : UaBrowseResponse κ)
    (convert : UaReferenceDescription κ → Except Exception BrowseResult) :
    (∃ enough, ∀ fuel ≥ enough,
      ((browseWithResultTypeFilter statusName answers fuel typeDefinition typeIsConnected nodeClass
        prepared sessionIsConnected response convert).run c).1.Surfaces
          (response.Failed ∨ ∃ expectedType ref t, typeDefinition = .ok expectedType ∧
            Reached (c.Passes answers expectedType convert) response.references ref ∧
              c.Asks answers expectedType ref.typeDefinition t ∧
                (answers t).Failed c.isConnected)) ↔
      ∀ expectedType, typeDefinition = .ok expectedType →
        c.isConnected = true ∧ typeIsConnected = true → isTypeClass nodeClass = true →
        prepared = .ok () → c.isConnected = true ∧ sessionIsConnected = true →
        (∀ first ∈ response.results.head?, isBadStatus first.statusCode = false) →
        (∀ ref, Reached (c.Passes answers expectedType convert) response.references ref →
          ¬ c.IsUnanswered answers expectedType ref.typeDefinition) ∧
        ((∃ ref, Reached (c.Passes answers expectedType convert) response.references ref ∧
          c.Throws answers expectedType convert ref) ∨
        isBadStatus response.serviceResult = false ∧
          ∀ ref, Reached (c.Passes answers expectedType convert) response.references ref →
            ∀ t, c.Asks answers expectedType ref.typeDefinition t →
              isBadStatus (answers t).response.serviceResult = false) := by
  simp only [surfaces_filtered]
  rw [← Filter.eventually_atTop]
  cases typeDefinition with
  | error e => simp
  | ok expectedType =>
    simp only [Except.ok.injEq, forall_eq', Filter.eventually_imp_distrib_left]
    refine imp_congr_right fun _ => imp_congr_right fun _ => imp_congr_right fun _ =>
      imp_congr_right fun _ => imp_congr_right fun hfirst => ?_
    refine (Filter.eventually_congr ((eventually_surfaces_collect statusName c answers expectedType
      convert response.references response.Failed).mono fun fuel hends => ?_)).trans
        Filter.eventually_const
    rw [failed_iff hfirst, Bool.not_eq_true] at hends
    rw [← hends]
    simp [failed_iff hfirst]

variable (statusName c) in
/-- The handler leaves no exception. -/
theorem run_isSameOrSubtypeOfModel [DecidableEq κ] (answers : κ → UaTypeAnswers κ)
    (expected check : Option κ) (maxDepth : UInt64) (fuel : ℕ) :
    (((isSameOrSubtypeOfModel statusName answers fuel (.ok expected) (.ok check) maxDepth).run
        c).1 = .stuck .undefined ↔
      climbEnd statusName answers c expected fuel check = .stuck .undefined) ∧
    ∀ e, ((isSameOrSubtypeOfModel statusName answers fuel (.ok expected) (.ok check)
      maxDepth).run c).1 ≠ .throw e := by
  have hc : Agrees statusName answers c c := ⟨rfl, fun _ => rfl⟩
  have hend := (hc.run_isSameOrSubtype answers expected fuel check maxDepth).1
  rw [← hend, isSameOrSubtypeOfModel]
  simp only [Prog.run_bind, run_lift_ok, Prog.run_catching]
  rcases (isSameOrSubtype statusName answers fuel expected check maxDepth).run c with
    ⟨b | e | w, s⟩
  · simp
  · simp [Prog.run, pure]
  · simp

theorem surfaces_isSameOrSubtypeOfModel [DecidableEq κ] (answers : κ → UaTypeAnswers κ)
    (expectedType checkType : Except Exception (Option κ)) (maxDepth : UInt64) :
    (∃ enough, ∀ fuel ≥ enough,
      ((isSameOrSubtypeOfModel statusName answers fuel expectedType checkType
        maxDepth).run c).1.Surfaces
          (∃ expected check t, expectedType = .ok expected ∧ checkType = .ok check ∧
            c.Asks answers expected check t ∧ (answers t).Failed c.isConnected)) ↔
      ∀ expected check, expectedType = .ok expected → checkType = .ok check →
        ∀ t, c.Asks answers expected check t → (answers t).Connected c.isConnected →
          (answers t).nodeClass ≠ none ∧ (isTypeClass (answers t).nodeClass = true →
            (∃ first ∈ (answers t).response.results.head?, isBadStatus first.statusCode = false) ∧
              isBadStatus (answers t).response.serviceResult = false) := by
  cases expectedType with
  | error e => simp [isSameOrSubtypeOfModel, lift, Prog.call, Prog.run, bind]
  | ok expected =>
    cases checkType with
    | error e => simp [isSameOrSubtypeOfModel, lift, Prog.call, Prog.run, bind]
    | ok check =>
      rw [← Filter.eventually_atTop]
      have hunanswered := (eventually_climbEnd statusName c answers expected check).2.2.2
      refine (Filter.eventually_congr (hunanswered.mono fun fuel hend => ?_)).trans
        Filter.eventually_const
      obtain ⟨hundefined, hthrow⟩ := run_isSameOrSubtypeOfModel statusName c answers expected
        check maxDepth fuel
      rw [Outcome.Surfaces, Ne, hundefined, hend]
      constructor
      · rintro ⟨hanswered, hfailed⟩ e k he hk t ht
        obtain rfl := Except.ok.inj he
        obtain rfl := Except.ok.inj hk
        refine UaTypeAnswers.not_unanswered_and_not_failed_iff.mp
          ⟨fun hun => hanswered ⟨t, ht, hun⟩, fun hfail => ?_⟩
        obtain ⟨e, he⟩ := hfailed ⟨_, _, t, rfl, rfl, ht, hfail⟩
        exact hthrow e he
      · intro hanswered
        have hboth := fun t ht => UaTypeAnswers.not_unanswered_and_not_failed_iff.mpr
          (hanswered expected check rfl rfl t ht)
        constructor
        · rintro ⟨t, ht, hun⟩
          exact (hboth t ht).1 hun
        · rintro ⟨e, k, t, he, hk, ht, hfail⟩
          obtain rfl := Except.ok.inj he
          obtain rfl := Except.ok.inj hk
          exact absurd hfail (hboth t ht).2

theorem surfaces_browseSuperType (answers : UaTypeAnswers κ) :
    ((browseSuperType statusName answers).run c).1.Surfaces (answers.Failed c.isConnected) ↔
      (answers.Browsed c.isConnected →
        ∃ first ∈ answers.response.results.head?,
          isBadStatus answers.response.serviceResult = true →
            isBadStatus first.statusCode = true) := by
  obtain ⟨-, hthrow, hundefined⟩ := superTypeEnd_spec statusName answers c.isConnected
  rw [(run_browseSuperType answers c statusName).1, Outcome.Surfaces, hthrow, Ne, hundefined]
  by_cases hrefused : answers.Refused c.isConnected
  · refine iff_of_true ⟨fun hunanswered => ?_, fun _ => hrefused⟩ fun hbrowsed => ?_
    · obtain ⟨first, hfirst, -⟩ := hrefused hunanswered.1
      rw [hunanswered.2] at hfirst
      cases hfirst
    · obtain ⟨first, hfirst, hbad⟩ := hrefused hbrowsed
      exact ⟨first, hfirst, fun _ => hbad⟩
  · rw [UaTypeAnswers.failed_iff hrefused, UaTypeAnswers.Unanswered, imp_iff_not hrefused]
    rw [UaTypeAnswers.Refused, Classical.not_imp] at hrefused
    obtain ⟨hbrowsed, hgood⟩ := hrefused
    cases hr : answers.response.results with
    | nil => simp [hbrowsed]
    | cons first rest =>
      have hfirst : isBadStatus first.statusCode = false := by simpa [hr] using hgood
      simp [hbrowsed, hfirst]

theorem surfaces_translateBrowsePathToNodeId (sessionIsConnected : Bool) (startNode : NodeId)
    (browseName : QualifiedName) (prepared : Except Exception Unit)
    (response : UaTranslateResponse κ) (convert : Option κ → Except Exception NodeId) :
    ((translateBrowsePathToNodeId statusName sessionIsConnected startNode browseName prepared
        response convert).run c).1.Surfaces response.Failed ↔
      (c.isConnected = true ∧ sessionIsConnected = true → browseName.isNull = false →
        startNode.isNull = false → prepared = .ok () →
        ∃ first ∈ response.results.head?, isBadStatus first.statusCode = false →
          ∃ target ∈ first.targets.head?, isBadStatus response.serviceResult = true →
            ∃ e, convert target = .error e) := by
  rw [← Prog.ends_iff_run (Q := fun o _ => o.Surfaces response.Failed)]
  simp only [translateBrowsePathToNodeId, Prog.ends_bind, ends_verifyConnected,
    Outcome.follow_throw, Outcome.follow_ok, Outcome.surfaces_throw, implies_true, and_true]
  refine imp_congr_right fun _ => ?_
  cases hname : browseName.isNull with
  | true => simp
  | false =>
    cases hstart : startNode.isNull with
    | true => simp
    | false =>
      cases prepared with
      | error e => simp
      | ok u =>
        cases hr : response.results with
        | nil => simp [Prog.front]
        | cons first rest =>
          cases hb : isBadStatus first.statusCode with
          | true => simp [Prog.front, ends_throwIfBad, hb]
          | false =>
            cases htargets : first.targets with
            | nil => simp [Prog.front, ends_throwIfBad, hb, htargets]
            | cons target targets =>
              simp [Prog.front, ends_throwIfBad, hb, htargets, surfaces_lift,
                UaTranslateResponse.Failed, hr]

theorem surfaces_readeNodeValues (prepared : Except Exception Unit) (response : UaReadResponse δ)
    (convert : δ → Except Exception Json) :
    ((readeNodeValues statusName prepared response convert).run c).1.Surfaces response.Failed ↔
      (prepared = .ok () →
        ∃ first ∈ response.results.head?, isBadStatus first.status = false →
          isBadStatus response.serviceResult = true →
            ∃ result ∈ response.results, ∃ e, convert result.value = .error e) := by
  rw [← Prog.ends_iff_run (Q := fun o _ => o.Surfaces response.Failed)]
  cases prepared with
  | error e => simp [readeNodeValues]
  | ok u =>
    cases hr : response.results with
    | nil => simp [readeNodeValues, hr, Prog.front]
    | cons first rest =>
      cases hb : isBadStatus first.status with
      | true => simp [readeNodeValues, hr, Prog.front, hb]
      | false =>
        simp only [readeNodeValues, hr, Prog.front, Prog.ends_bind, ends_lift_ok,
          Outcome.follow_ok, Prog.ends_pure, hb, surfaces_lift, mapM_error_iff]
        simp [UaReadResponse.Failed, hr, hb]

theorem surfaces_subscriptionUnsubscribe (monItemIds clientHandles : List Int32)
    (response : UaDeleteMonitoredItemsResponse) :
    ((subscriptionUnsubscribe monItemIds clientHandles response).run c).1.Surfaces False ↔
      (monItemIds.length ≤ clientHandles.length → monItemIds.length ≤ response.results.length) := by
  rw [← Prog.ends_iff_run (Q := fun o _ => o.Surfaces False)]
  by_cases hat : monItemIds.length ≤ clientHandles.length
  · by_cases hresults : response.results.length < monItemIds.length
    · simp [subscriptionUnsubscribe, newMonitoredItemIds, hat, hresults]
    · simp [subscriptionUnsubscribe, newMonitoredItemIds, hat, hresults, Nat.le_of_not_lt hresults]
  · simp [subscriptionUnsubscribe, newMonitoredItemIds, hat]

end Operations

end ServiceClient

/-! ### Every operation -/

/-- A call of one of the operations, with everything it gets from the stack. -/
inductive ServiceCall (κ δ : Type) where
  | browse (prepared : Except Exception Unit) (sessionIsConnected : Bool)
    (response : UaBrowseResponse κ)
    (convert : UaReferenceDescription κ → Except Exception BrowseResult)
  | browseWithResultTypeFilter (answers : κ → UaTypeAnswers κ)
    (typeDefinition : Except Exception (Option κ)) (typeIsConnected : Bool)
    (nodeClass : Option NodeClass) (prepared : Except Exception Unit) (sessionIsConnected : Bool)
    (response : UaBrowseResponse κ)
    (convert : UaReferenceDescription κ → Except Exception BrowseResult)
  | browseSuperType (answers : UaTypeAnswers κ)
  | isSameOrSubtype (answers : κ → UaTypeAnswers κ)
    (expectedType checkType : Except Exception (Option κ)) (maxDepth : UInt64)
  | translateBrowsePathToNodeId (sessionIsConnected : Bool) (startNode : NodeId)
    (browseName : QualifiedName) (prepared : Except Exception Unit)
    (response : UaTranslateResponse κ) (convert : Option κ → Except Exception NodeId)
  | readeNodeValues (prepared : Except Exception Unit) (response : UaReadResponse δ)
    (convert : δ → Except Exception Json)
  | unsubscribe (monItemIds clientHandles : List Int32)
    (response : UaDeleteMonitoredItemsResponse)

namespace ServiceCall

open ServiceClient

variable {χ κ δ : Type} [DecidableEq κ] (statusName : UInt32 → String) (c : ServiceClient χ κ)

/-- A service call that the operation makes has failed. Of Unsubscribe only the accesses are asked
for. -/
def Failed : ServiceCall κ δ → Prop
  | browse _ _ response _ => response.Failed
  | browseWithResultTypeFilter answers typeDefinition _ _ _ _ response convert =>
    response.Failed ∨ ∃ expectedType ref t, typeDefinition = .ok expectedType ∧
      Reached (c.Passes answers expectedType convert) response.references ref ∧
        c.Asks answers expectedType ref.typeDefinition t ∧ (answers t).Failed c.isConnected
  | browseSuperType answers => answers.Failed c.isConnected
  | isSameOrSubtype answers expectedType checkType _ =>
    ∃ expected check t, expectedType = .ok expected ∧ checkType = .ok check ∧
      c.Asks answers expected check t ∧ (answers t).Failed c.isConnected
  | translateBrowsePathToNodeId _ _ _ _ response _ => response.Failed
  | readeNodeValues _ response _ => response.Failed
  | unsubscribe _ _ _ => False

/-- The operation surfaces what the stack answers, with fuel enough for the climbs. -/
def Surfaces (call : ServiceCall κ δ) : Prop :=
  match call with
  | browse prepared connected response convert =>
    ((ServiceClient.browse statusName prepared connected response convert).run c).1.Surfaces
      (call.Failed c)
  | browseWithResultTypeFilter answers typeDefinition typeIsConnected nodeClass prepared connected
      response convert =>
    ∃ enough, ∀ fuel ≥ enough,
      ((ServiceClient.browseWithResultTypeFilter statusName answers fuel typeDefinition
        typeIsConnected nodeClass prepared connected response convert).run c).1.Surfaces
          (call.Failed c)
  | browseSuperType answers =>
    ((ServiceClient.browseSuperType statusName answers).run c).1.Surfaces (call.Failed c)
  | isSameOrSubtype answers expectedType checkType maxDepth =>
    ∃ enough, ∀ fuel ≥ enough,
      ((isSameOrSubtypeOfModel statusName answers fuel expectedType checkType
        maxDepth).run c).1.Surfaces (call.Failed c)
  | translateBrowsePathToNodeId connected startNode browseName prepared response convert =>
    ((ServiceClient.translateBrowsePathToNodeId statusName connected startNode browseName prepared
      response convert).run c).1.Surfaces (call.Failed c)
  | readeNodeValues prepared response convert =>
    ((ServiceClient.readeNodeValues statusName prepared response convert).run c).1.Surfaces
      (call.Failed c)
  | unsubscribe monItemIds clientHandles response =>
    ((subscriptionUnsubscribe monItemIds clientHandles response).run c).1.Surfaces (call.Failed c)

/-- What the answers have to be like, once the checks before them are passed. -/
def Answered : ServiceCall κ δ → Prop
  | browse prepared connected response convert =>
    prepared = .ok () → c.isConnected = true ∧ connected = true →
      (∀ first ∈ response.results.head?, isBadStatus first.statusCode = false) →
      isBadStatus response.serviceResult = true →
      ∃ ref ∈ response.references, ∃ e, convert ref = .error e
  | browseWithResultTypeFilter answers typeDefinition typeIsConnected nodeClass prepared connected
      response convert =>
    ∀ expectedType, typeDefinition = .ok expectedType →
      c.isConnected = true ∧ typeIsConnected = true → isTypeClass nodeClass = true →
      prepared = .ok () → c.isConnected = true ∧ connected = true →
      (∀ first ∈ response.results.head?, isBadStatus first.statusCode = false) →
      (∀ ref, Reached (c.Passes answers expectedType convert) response.references ref →
        ¬ c.IsUnanswered answers expectedType ref.typeDefinition) ∧
      ((∃ ref, Reached (c.Passes answers expectedType convert) response.references ref ∧
        c.Throws answers expectedType convert ref) ∨
      isBadStatus response.serviceResult = false ∧
        ∀ ref, Reached (c.Passes answers expectedType convert) response.references ref →
          ∀ t, c.Asks answers expectedType ref.typeDefinition t →
            isBadStatus (answers t).response.serviceResult = false)
  | browseSuperType answers =>
    answers.Browsed c.isConnected →
      ∃ first ∈ answers.response.results.head?,
        isBadStatus answers.response.serviceResult = true → isBadStatus first.statusCode = true
  | isSameOrSubtype answers expectedType checkType _ =>
    ∀ expected check, expectedType = .ok expected → checkType = .ok check →
      ∀ t, c.Asks answers expected check t → (answers t).Connected c.isConnected →
        (answers t).nodeClass ≠ none ∧ (isTypeClass (answers t).nodeClass = true →
          (∃ first ∈ (answers t).response.results.head?, isBadStatus first.statusCode = false) ∧
            isBadStatus (answers t).response.serviceResult = false)
  | translateBrowsePathToNodeId connected startNode browseName prepared response convert =>
    c.isConnected = true ∧ connected = true → browseName.isNull = false →
      startNode.isNull = false → prepared = .ok () →
      ∃ first ∈ response.results.head?, isBadStatus first.statusCode = false →
        ∃ target ∈ first.targets.head?, isBadStatus response.serviceResult = true →
          ∃ e, convert target = .error e
  | readeNodeValues prepared response convert =>
    prepared = .ok () →
      ∃ first ∈ response.results.head?, isBadStatus first.status = false →
        isBadStatus response.serviceResult = true →
          ∃ result ∈ response.results, ∃ e, convert result.value = .error e
  | unsubscribe monItemIds clientHandles response =>
    monItemIds.length ≤ clientHandles.length → monItemIds.length ≤ response.results.length

/-- **Failed service calls.** An operation surfaces what the stack answers exactly when the answers
have what the operation looks at in place of the service result. -/
theorem surfaces_iff_answered (call : ServiceCall κ δ) :
    call.Surfaces statusName c ↔ call.Answered c := by
  cases call with
  | browse prepared connected response convert =>
    exact surfaces_browse prepared connected response convert
  | browseWithResultTypeFilter answers typeDefinition typeIsConnected nodeClass prepared connected
      response convert =>
    exact surfaces_browseWithResultTypeFilter answers typeDefinition typeIsConnected nodeClass
      prepared connected response convert
  | browseSuperType answers => exact surfaces_browseSuperType answers
  | isSameOrSubtype answers expectedType checkType maxDepth =>
    exact surfaces_isSameOrSubtypeOfModel answers expectedType checkType maxDepth
  | translateBrowsePathToNodeId connected startNode browseName prepared response convert =>
    exact surfaces_translateBrowsePathToNodeId connected startNode browseName prepared response
      convert
  | readeNodeValues prepared response convert =>
    exact surfaces_readeNodeValues prepared response convert
  | unsubscribe monItemIds clientHandles response =>
    exact surfaces_subscriptionUnsubscribe monItemIds clientHandles response

end ServiceCall

/-! ### A lost connection -/

/-- A connected client that knows no supertype. -/
def connectedClient : ServiceClient Unit Nat where
  isConnected := true
  tryConnecting := true
  subscription := { nextId := 1, subscriptionId := 1, callbacks := ∅ }
  superTypes := fun _ => none

/-- Browsing while the connection is lost: the service result is `BadConnectionClosed` and there
are no results. -/
def lostBrowse : ServiceCall Nat Unit :=
  .browse (.ok ()) true { serviceResult := 0x80AE0000, results := [] }
    fun _ => .error (.umati "not converted")

/-- A Browse over a lost connection returns no references instead of throwing. -/
theorem not_surfaces_lostBrowse :
    ¬ lostBrowse.Surfaces (fun _ => "BadConnectionClosed") connectedClient := by
  rw [lostBrowse, ServiceCall.Surfaces, ServiceCall.Failed, ServiceClient.surfaces_browse]
  intro hanswered
  obtain ⟨ref, href, -⟩ := hanswered rfl ⟨rfl, rfl⟩ (by simp) (by decide)
  simp [UaBrowseResponse.references] at href

end UmatiDashboard
