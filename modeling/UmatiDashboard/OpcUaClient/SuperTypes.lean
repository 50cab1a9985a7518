import UmatiDashboard.OpcUaClient.ServiceFailures
import UmatiDashboard.Util.Climb

/-!
# Climbing with the supertypes that are known

A query climbs from a type to the expected one, with the supertypes that the client remembers
(`m_superTypes`) and browsing the others. What it remembers is true as long as a Browse that
succeeds finds the true supertype (`knows_isSameOrSubtype`), so a query that returns gives the
answer of the plain climb `climb`, whatever was asked before and whatever failed
(`isSameOrSubtype_transparent`).

The depth that is handed on plays no part in this: a query gives the answer for its depth exactly
if the expected type is not further up than that, and the supertypes come to an end if it is not
among them at all (`isSameOrSubtype_bounded_iff`).
-/

namespace UmatiDashboard

namespace ServiceClient

variable {χ κ : Type} {statusName : UInt32 → String} {s : ServiceClient χ κ}

/-- Every supertype that the client remembers is the true one. -/
def Knows (superType : κ → Option κ) (c : ServiceClient χ κ) : Prop :=
  ∀ t known, c.superTypes t = some known → known = superType t

/-- Browsing a supertype finds the true one, or fails. -/
def Truthful (statusName : UInt32 → String) (superType : κ → Option κ)
    (answers : κ → UaTypeAnswers κ) : Prop :=
  ∀ t found, superTypeEnd statusName (answers t) true = .ok found → found = superType t

/-- Browsing a supertype finds the true one. -/
def Reports (statusName : UInt32 → String) (superType : κ → Option κ)
    (answers : κ → UaTypeAnswers κ) : Prop :=
  ∀ t, superTypeEnd statusName (answers t) true = .ok (superType t)

variable {superType : κ → Option κ} {answers : κ → UaTypeAnswers κ}

theorem Reports.truthful (h : Reports statusName superType answers) :
    Truthful statusName superType answers := fun t found hfound => by
  rw [h t] at hfound
  exact (Outcome.ok.inj hfound).symm

/-- A supertype is found only over a connection. -/
theorem superTypeEnd_eq_ok {t : UaTypeAnswers κ} {isConnected : Bool} {found : Option κ}
    (h : superTypeEnd statusName t isConnected = .ok found) :
    superTypeEnd statusName t true = .ok found := by
  cases isConnected with
  | true => exact h
  | false => simp [superTypeEnd] at h

/-- Browsing a supertype does not touch what is remembered, however it ends. -/
theorem superTypes_browseSuperType (statusName : UInt32 → String) (t : UaTypeAnswers κ)
    (s : ServiceClient χ κ) :
    ((browseSuperType statusName t).run s).2.superTypes = s.superTypes := by
  have hends : (browseSuperType statusName t).Ends s fun _ s' => s'.superTypes = s.superTypes := by
    simp only [browseSuperType, Prog.ends_bind, ends_verifyConnected, ends_throwIfNoType,
      Outcome.follow_ok, Outcome.follow_throw, Prog.ends_front, ends_throwIfBad,
      ends_copySuperType, Outcome.follow_stuck, implies_true, and_self]
  exact hends

variable [DecidableEq κ]

theorem Knows.update (h : Knows superType s) (t : κ) :
    Knows superType
      { s with superTypes := Function.update s.superTypes t (some (superType t)) } := by
  intro u known hu
  have hu : Function.update s.superTypes t (some (superType t)) u = some known := hu
  by_cases heq : u = t
  · subst heq
    rw [Function.update_self] at hu
    exact (Option.some.inj hu).symm
  · rw [Function.update_of_ne heq] at hu
    exact h u known hu

/-- **A query remembers nothing false**, however it ends, and if it returns, it gives the answer of
the plain climb. -/
theorem knows_isSameOrSubtype (hanswers : Truthful statusName superType answers)
    (expectedType : Option κ) (fuel : ℕ) : ∀ (checkType : Option κ) (maxDepth : UInt64)
      {s : ServiceClient χ κ}, Knows superType s →
      Knows superType
        ((isSameOrSubtype statusName answers fuel expectedType checkType maxDepth).run s).2 ∧
      ∀ b, ((isSameOrSubtype statusName answers fuel expectedType checkType maxDepth).run s).1 =
        .ok b → climb superType expectedType fuel checkType = some b := by
  induction fuel with
  | zero =>
    intro checkType maxDepth s hs
    exact ⟨hs, fun b hb => by cases hb⟩
  | succ fuel ih =>
    intro checkType maxDepth s hs
    cases checkType with
    | none => exact ⟨hs, fun b hb => by cases hb; rfl⟩
    | some t =>
      by_cases hexpected : expectedType = some t
      · simp only [isSameOrSubtype, climb, if_pos hexpected]
        exact ⟨hs, fun b hb => by cases hb; rfl⟩
      rw [climb, if_neg hexpected]
      cases hknown : s.superTypes t with
      | some known =>
        rw [run_isSameOrSubtype_known answers fuel maxDepth hexpected hknown, hs t known hknown]
        exact ih (superType t) (maxDepth - 1) hs
      | none =>
        rw [run_isSameOrSubtype_browse answers fuel maxDepth hexpected hknown, Prog.run_bind]
        obtain ⟨hend, hstays⟩ := run_browseSuperType (answers t) s statusName
        have hkeeps := superTypes_browseSuperType statusName (answers t) s
        generalize (browseSuperType statusName (answers t)).run s = r at hend hstays hkeeps ⊢
        obtain ⟨o, s'⟩ := r
        have hs' : Knows superType s' := by
          intro u known hu
          exact hs u known (by rw [← hkeeps]; exact hu)
        cases o with
        | ok found =>
          -- the supertype that is entered is the one that was found
          obtain rfl := hanswers t found (superTypeEnd_eq_ok hend.symm)
          exact ih (superType t) (maxDepth - 1) (hs'.update t)
        | throw e => exact ⟨hs', fun b hb => by cases hb⟩
        | stuck w => exact ⟨hs', fun b hb => by cases hb⟩

/-- **A query that nothing disturbs** is the plain climb. -/
theorem run_isSameOrSubtype (hanswers : Reports statusName superType answers)
    (expectedType : Option κ) (fuel : ℕ) : ∀ (checkType : Option κ) (maxDepth : UInt64)
      {s : ServiceClient χ κ}, s.isConnected = true → Knows superType s →
      ∀ b, ((isSameOrSubtype statusName answers fuel expectedType checkType maxDepth).run s).1 =
        .ok b ↔ climb superType expectedType fuel checkType = some b := by
  induction fuel with
  | zero =>
    intro checkType maxDepth s _ _ b
    simp [isSameOrSubtype, climb, Prog.run, Prog.stuck]
  | succ fuel ih =>
    intro checkType maxDepth s hc hs b
    cases checkType with
    | none => simp [isSameOrSubtype, climb, Prog.run, pure]
    | some t =>
      by_cases hexpected : expectedType = some t
      · simp [isSameOrSubtype, climb, hexpected, Prog.run, pure]
      rw [climb, if_neg hexpected]
      cases hknown : s.superTypes t with
      | some known =>
        rw [run_isSameOrSubtype_known answers fuel maxDepth hexpected hknown, hs t known hknown]
        exact ih (superType t) (maxDepth - 1) hc hs b
      | none =>
        rw [run_isSameOrSubtype_browse answers fuel maxDepth hexpected hknown, Prog.run_bind]
        obtain ⟨hend, hstays⟩ := run_browseSuperType (answers t) s statusName
        rw [hc, hanswers t] at hend hstays
        have hrun : (browseSuperType statusName (answers t)).run s = (.ok (superType t), s) :=
          Prod.ext hend (hstays trivial)
        rw [hrun]
        refine ih (superType t) (maxDepth - 1) ?_ (hs.update t) b
        exact hc

/-! ### The depth -/

/-- **When a query keeps to its depth.** Over a server that reports its supertypes, and with
whatever the client remembers of them, a query ends with the answer for its depth if and only if
the expected type is not further up than that, and the supertypes come to an end if it is not
among them at all. -/
theorem isSameOrSubtype_bounded_iff (hanswers : Reports statusName superType answers)
    {s : ServiceClient χ κ} (hc : s.isConnected = true) (hs : Knows superType s)
    (expectedType checkType : κ) (maxDepth : UInt64) :
    (∃ enough, ∀ fuel ≥ enough,
      ((isSameOrSubtype statusName answers fuel (some expectedType) (some checkType)
        maxDepth).run s).1 =
          .ok (decide (∃ n ≤ maxDepth.toNat,
            ancestor superType n (some checkType) = some expectedType))) ↔
      (∃ n ≤ maxDepth.toNat, ancestor superType n (some checkType) = some expectedType) ∨
        (∃ n, ancestor superType n (some checkType) = none) ∧
          ∀ n, ancestor superType n (some checkType) ≠ some expectedType := by
  constructor
  · rintro ⟨enough, hfuel⟩
    have hclimb := ancestor_of_climb ((run_isSameOrSubtype hanswers (some expectedType) enough
      (some checkType) maxDepth hc hs _).mp (hfuel enough (Nat.le_refl _)))
    by_cases hnear : ∃ n ≤ maxDepth.toNat,
        ancestor superType n (some checkType) = some expectedType
    · exact Or.inl hnear
    · rw [if_neg (by simpa using hnear)] at hclimb
      exact Or.inr hclimb
  · rintro (⟨n, hn, hmet⟩ | ⟨⟨n, hend⟩, hnot⟩)
    · refine ⟨n + 1, fun fuel hfuel => ?_⟩
      rw [run_isSameOrSubtype hanswers (some expectedType) fuel (some checkType) maxDepth hc hs,
        decide_eq_true ⟨n, hn, hmet⟩]
      exact climb_mono (climb_of_ancestor hmet) hfuel
    · obtain ⟨b, hb⟩ : ∃ b, climb superType (some expectedType) (n + 1) (some checkType) =
          some b := exists_climb_of_ancestor_eq_none hend
      have hfalse : b = false := by
        by_contra htrue
        rw [Bool.not_eq_false] at htrue
        subst htrue
        obtain ⟨m, hm⟩ := ancestor_of_climb hb
        exact hnot m hm
      refine ⟨n + 1, fun fuel hfuel => ?_⟩
      rw [run_isSameOrSubtype hanswers (some expectedType) fuel (some checkType) maxDepth hc hs,
        decide_eq_false fun ⟨m, _, hm⟩ => hnot m hm, ← hfalse]
      exact climb_mono hb hfuel

/-- The answers of a stack that is connected and where type 1 is the supertype of type 0. -/
def derivedAnswers (t : ℕ) : UaTypeAnswers ℕ where
  sessionIsConnected := true
  nodeClass := some .objectType
  response := { serviceResult := 0, results := [{
    statusCode := 0, continuationPoint := []
    references := if t = 0 then [⟨none, some 1, (0, ""), .objectType, none, false⟩] else [] }] }

/-- The supertypes that these answers report. -/
def derivedSuperType (t : ℕ) : Option ℕ := if t = 0 then some 1 else none

theorem reports_derivedAnswers :
    Reports (fun _ => "Good") derivedSuperType derivedAnswers := by
  intro t
  by_cases ht : t = 0
  · subst ht
    decide
  · simp [superTypeEnd, derivedAnswers, derivedSuperType, ht, isTypeClass, isBadStatus,
      UaBrowseResponse.references, superTypeOf, copiesFreed]

theorem knows_connectedClient (superType : ℕ → Option ℕ) : Knows superType connectedClient :=
  fun _ _ h => by cases h

/-- At depth 0 the supertype of a type is found all the same. -/
theorem not_isSameOrSubtype_bounded :
    ¬ ∀ (superType : ℕ → Option ℕ) (answers : ℕ → UaTypeAnswers ℕ) (s : ServiceClient Unit ℕ),
      Reports (fun _ => "Good") superType answers → s.isConnected = true → Knows superType s →
      ∀ (expectedType checkType : ℕ) (maxDepth : UInt64), ∃ enough, ∀ fuel ≥ enough,
        ((isSameOrSubtype (fun _ => "Good") answers fuel (some expectedType) (some checkType)
          maxDepth).run s).1 =
            .ok (decide (∃ n ≤ maxDepth.toNat,
              ancestor superType n (some checkType) = some expectedType)) := by
  intro hbounded
  obtain ⟨enough, hfuel⟩ := hbounded derivedSuperType derivedAnswers connectedClient
    reports_derivedAnswers rfl (knows_connectedClient _) 1 0 0
  have hclimb := (run_isSameOrSubtype reports_derivedAnswers (some 1) (enough + 2) (some 0) 0 rfl
    (knows_connectedClient _) _).mp (hfuel (enough + 2) (by omega))
  have hmet : climb derivedSuperType (some 1) (enough + 2) (some 0) = some true :=
    climb_mono (climb_of_ancestor (n := 1) rfl) (by omega)
  rw [hmet] at hclimb
  exact absurd hclimb (by decide)

/-- At depth 1 it is found, as it should be. -/
theorem isSameOrSubtype_bounded_iff_derived :
    (∃ enough, ∀ fuel ≥ enough,
      ((isSameOrSubtype (fun _ => "Good") derivedAnswers fuel (some 1) (some 0) 1).run
        connectedClient).1 = .ok (decide (∃ n ≤ (1 : UInt64).toNat,
          ancestor derivedSuperType n (some 0) = some 1))) ↔
      (∃ n ≤ (1 : UInt64).toNat, ancestor derivedSuperType n (some 0) = some 1) ∨
        (∃ n, ancestor derivedSuperType n (some 0) = none) ∧
          ∀ n, ancestor derivedSuperType n (some 0) ≠ some 1 :=
  isSameOrSubtype_bounded_iff reports_derivedAnswers rfl (knows_connectedClient _) 1 0 1

/-! ### Whole histories -/

/-- A query with the answers that the stack gives while it runs. -/
structure SuperTypeQuery (κ : Type) where
  answers : κ → UaTypeAnswers κ
  fuel : ℕ
  expectedType : Option κ
  checkType : Option κ
  maxDepth : UInt64

def SuperTypeQuery.run (statusName : UInt32 → String) (q : SuperTypeQuery κ)
    (s : ServiceClient χ κ) : Outcome Exception Bool × ServiceClient χ κ :=
  (isSameOrSubtype statusName q.answers q.fuel q.expectedType q.checkType q.maxDepth).run s

/-- The client after a history of queries. Before each of them, other members of the client may
change in any way. -/
def afterQueries (statusName : UInt32 → String)
    (history : List ((OpcUaClient χ → OpcUaClient χ) × SuperTypeQuery κ))
    (s : ServiceClient χ κ) : ServiceClient χ κ :=
  history.foldl (fun s p =>
    (p.2.run statusName { s with toOpcUaClient := p.1 s.toOpcUaClient }).2) s

/-- After every history only true supertypes are remembered. -/
theorem Knows.afterQueries
    (history : List ((OpcUaClient χ → OpcUaClient χ) × SuperTypeQuery κ))
    (hhistory : ∀ p ∈ history, Truthful statusName superType p.2.answers)
    {s : ServiceClient χ κ} (hs : Knows superType s) :
    Knows superType (afterQueries statusName history s) := by
  induction history generalizing s with
  | nil => exact hs
  | cons p history ih =>
    refine ih (fun q hq => hhistory q (List.mem_cons_of_mem _ hq)) ?_
    have hmeanwhile : Knows superType { s with toOpcUaClient := p.1 s.toOpcUaClient } := hs
    exact (knows_isSameOrSubtype (hhistory p List.mem_cons_self) p.2.expectedType p.2.fuel
      p.2.checkType p.2.maxDepth hmeanwhile).1

/-- **The supertypes that are remembered do not show.** After every history of queries, whatever
failed in it, only true supertypes are remembered, and a further query that returns gives the
answer of a connected client that remembers nothing and whose server reports every supertype. -/
theorem isSameOrSubtype_transparent (start : OpcUaClient χ)
    (history : List ((OpcUaClient χ → OpcUaClient χ) × SuperTypeQuery κ))
    (hhistory : ∀ p ∈ history, Truthful statusName superType p.2.answers) :
    let s := afterQueries statusName history { start with superTypes := fun _ => none }
    (∀ t known, s.superTypes t = some known → known = superType t) ∧
      ∀ (now : OpcUaClient χ) (q : SuperTypeQuery κ), Truthful statusName superType q.answers →
        ∀ b, (q.run statusName { s with toOpcUaClient := now }).1 = .ok b →
          ∀ (answers : κ → UaTypeAnswers κ) (fresh : ServiceClient χ κ),
            Reports statusName superType answers → fresh.isConnected = true →
            (∀ t, fresh.superTypes t = none) →
            (SuperTypeQuery.run statusName { q with answers } fresh).1 = .ok b := by
  intro s
  have hs : Knows superType s :=
    Knows.afterQueries history hhistory fun t known h => by cases h
  refine ⟨hs, fun now q hq b hb answers fresh hanswers hc hfresh => ?_⟩
  have hnow : Knows superType { s with toOpcUaClient := now } := hs
  have hclimb := (knows_isSameOrSubtype hq q.expectedType q.fuel q.checkType q.maxDepth hnow).2 b hb
  have hempty : Knows superType fresh := by
    intro t known ht
    rw [hfresh t] at ht
    cases ht
  exact (run_isSameOrSubtype hanswers q.expectedType q.fuel q.checkType q.maxDepth hc hempty
    b).mpr hclimb

/-- Answers without a session. -/
def lostAnswers (t : ℕ) : UaTypeAnswers ℕ := { derivedAnswers t with sessionIsConnected := false }

/-- The session is lost during the first query and back for the second one. -/
theorem isSameOrSubtype_transparent_lost :
    let history : List ((OpcUaClient Unit → OpcUaClient Unit) × SuperTypeQuery ℕ) :=
      [(id, ⟨lostAnswers, 9, some 1, some 0, 3⟩), (fun _ => connectedClient.toOpcUaClient,
        ⟨derivedAnswers, 9, some 2, some 0, 3⟩)]
    let s := afterQueries (fun _ => "Good") history connectedClient
    (∀ t known, s.superTypes t = some known → known = derivedSuperType t) ∧
      ∀ (now : OpcUaClient Unit) (q : SuperTypeQuery ℕ),
        Truthful (fun _ => "Good") derivedSuperType q.answers →
        ∀ b, (q.run (fun _ => "Good") { s with toOpcUaClient := now }).1 = .ok b →
          ∀ (answers : ℕ → UaTypeAnswers ℕ) (fresh : ServiceClient Unit ℕ),
            Reports (fun _ => "Good") derivedSuperType answers → fresh.isConnected = true →
            (∀ t, fresh.superTypes t = none) →
            (SuperTypeQuery.run (fun _ => "Good") { q with answers } fresh).1 = .ok b := by
  refine isSameOrSubtype_transparent connectedClient.toOpcUaClient _ fun p hp => ?_
  rcases List.mem_pair.mp hp with rfl | rfl
  · intro t found hfound
    simp [superTypeEnd, lostAnswers] at hfound
  · exact reports_derivedAnswers.truthful

end ServiceClient

end UmatiDashboard
