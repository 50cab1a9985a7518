import Mathlib.Order.Filter.AtTopBot.Basic
import UmatiDashboard.OpcUaClient.Services

/-!
# Climbing to a supertype

A query climbs from a type to the expected one. It asks the stack for the supertypes that the
client does not remember, and remembers them. What it remembers is what it would be told again, so
a climb ends as it would for a client that remembers nothing of it (`run_isSameOrSubtype_climbEnd`).

`ComesTo` says which types a climb comes to, in terms of what the client remembers and the stack
answers, and `eventually_climbEnd` how it ends, with fuel enough.
-/

namespace UmatiDashboard

/-! ### What the stack has to say about a type -/

namespace UaTypeAnswers

open ServiceClient (isTypeClass superTypeOf copiesFreed)

variable {κ : Type} (answers : UaTypeAnswers κ) (isConnected : Bool)

/-- There is a connection to ask about the type. -/
def Connected : Prop := isConnected = true ∧ answers.sessionIsConnected = true

/-- The supertype is browsed: the node is a type. -/
def Browsed : Prop := answers.Connected isConnected ∧ isTypeClass answers.nodeClass = true

/-- Asking for the supertype throws: it is not browsed, or the first result is bad. -/
def Refused : Prop :=
  answers.Browsed isConnected →
    ∃ first ∈ answers.response.results.head?, isBadStatus first.statusCode = true

/-- The supertype is browsed, and there is no result. -/
def Unanswered : Prop := answers.Browsed isConnected ∧ answers.response.results = []

/-- The supertype is browsed and copied. -/
def Names (superType : Option κ) : Prop :=
  answers.Browsed isConnected ∧
    (∃ first ∈ answers.response.results.head?, isBadStatus first.statusCode = false) ∧
      copiesFreed answers.response.references = false ∧
        superTypeOf answers.response.references = superType

end UaTypeAnswers

namespace ServiceClient

variable {χ κ δ α : Type} {statusName : UInt32 → String} {c s : ServiceClient χ κ}

/-! ### The steps of an operation -/

section Steps

variable {Q : Outcome Exception α → ServiceClient χ κ → Prop}

theorem ends_lift {r : Except Exception α} :
    (lift r).Ends s Q ↔ (∀ a, r = .ok a → Q (.ok a) s) ∧ ∀ e, r = .error e → Q (.throw e) s := by
  rw [lift, Prog.ends_call]
  constructor
  · rintro ⟨hok, herror⟩
    exact ⟨fun a h => hok a s (by rw [h]), fun e h => herror e s (by rw [h])⟩
  · rintro ⟨hok, herror⟩
    refine ⟨fun a s' h => ?_, fun e s' h => ?_⟩
    · obtain ⟨hr, rfl⟩ := Prod.mk.inj h
      exact hok a hr
    · obtain ⟨hr, rfl⟩ := Prod.mk.inj h
      exact herror e hr

@[simp] theorem run_lift_ok {a : α} : (lift (.ok a) : ServiceM χ κ α).run s = (.ok a, s) := rfl

@[simp] theorem ends_lift_ok {a : α} : (lift (.ok a)).Ends s Q ↔ Q (.ok a) s := Iff.rfl

@[simp] theorem ends_lift_error {e : Exception} :
    (lift (.error e)).Ends s Q ↔ Q (.throw e) s := Iff.rfl

end Steps

section Checks

variable {Q : Outcome Exception Unit → ServiceClient χ κ → Prop}

theorem run_verifyConnected (sessionIsConnected : Bool) (s : ServiceClient χ κ) :
    (verifyConnected sessionIsConnected).run s =
      if s.isConnected && sessionIsConnected then (.ok (), s)
      else (.throw (.clientNotConnected "Need connected client."),
        { s with isConnected := false }) := by
  obtain ⟨⟨isConnected, tryConnecting, subscription⟩, superTypes⟩ := s
  cases isConnected <;> cases sessionIsConnected <;> rfl

theorem ends_verifyConnected {sessionIsConnected : Bool} :
    (verifyConnected sessionIsConnected).Ends s Q ↔
      (s.isConnected = true ∧ sessionIsConnected = true → Q (.ok ()) s) ∧
        (¬ (s.isConnected = true ∧ sessionIsConnected = true) →
          Q (.throw (.clientNotConnected "Need connected client."))
            { s with isConnected := false }) := by
  rw [Prog.ends_iff_run, run_verifyConnected]
  by_cases h : (s.isConnected && sessionIsConnected) = true
  · simp [← Bool.and_eq_true, h]
  · simp [← Bool.and_eq_true, h]

theorem ends_throwIfBad {status : UInt32} :
    (throwIfBad statusName status).Ends s Q ↔
      (isBadStatus status = true → Q (.throw (.ofStatus statusName status)) s) ∧
        (isBadStatus status = false → Q (.ok ()) s) := by
  unfold throwIfBad
  by_cases h : isBadStatus status = true
  · simp [h]
  · simp [h]

theorem ends_throwIfNoType {nodeClass : Option NodeClass} :
    (throwIfNoType nodeClass).Ends s Q ↔
      (isTypeClass nodeClass = true → Q (.ok ()) s) ∧
        (isTypeClass nodeClass = false → Q (.throw (.umati "Invalid NodeClass")) s) := by
  unfold throwIfNoType
  by_cases h : isTypeClass nodeClass = true
  · simp [h]
  · simp [h]

end Checks

theorem ends_copySuperType {refs : List (UaReferenceDescription κ)}
    {Q : Outcome Exception (Option κ) → ServiceClient χ κ → Prop} :
    (copySuperType refs).Ends s Q ↔
      (copiesFreed refs = true → Q (.stuck .freed) s) ∧
        (copiesFreed refs = false → Q (.ok (superTypeOf refs)) s) := by
  unfold copySuperType
  by_cases h : copiesFreed refs = true
  · simp [h]
  · simp [h]

/-! ### Climbing to a supertype -/

section SuperTypes

/-- How browsing a supertype ends, given whether the client is connected. -/
def superTypeEnd (statusName : UInt32 → String) (answers : UaTypeAnswers κ) (isConnected : Bool) :
    Outcome Exception (Option κ) :=
  if isConnected && answers.sessionIsConnected then
    if isTypeClass answers.nodeClass then
      match answers.response.results with
      | [] => .stuck .undefined
      | first :: _ =>
        if isBadStatus first.statusCode then .throw (.ofStatus statusName first.statusCode)
        else if copiesFreed answers.response.references then .stuck .freed
        else .ok (superTypeOf answers.response.references)
    else .throw (.umati "Invalid NodeClass")
  else .throw (.clientNotConnected "Need connected client.")

/-- Browsing a supertype that returns leaves the client alone. -/
theorem run_browseSuperType (answers : UaTypeAnswers κ) (s : ServiceClient χ κ)
    (statusName : UInt32 → String) :
    ((browseSuperType statusName answers).run s).1 = superTypeEnd statusName answers s.isConnected ∧
      ((superTypeEnd statusName answers s.isConnected).Returns →
        ((browseSuperType statusName answers).run s).2 = s) := by
  simp only [browseSuperType, Prog.run_bind, run_verifyConnected, superTypeEnd]
  by_cases hc : (s.isConnected && answers.sessionIsConnected) = true
  · simp only [hc, if_true, throwIfNoType]
    by_cases ht : isTypeClass answers.nodeClass = true
    · cases hr : answers.response.results with
      | nil => simp [ht, Prog.front, Prog.run, Prog.stuck, pure]
      | cons first rest =>
        by_cases hb : isBadStatus first.statusCode = true
        · simp [ht, Prog.front, Prog.run, pure, throwIfBad, hb, Prog.throw]
        · by_cases hf : copiesFreed answers.response.references = true
          · simp [ht, Prog.front, Prog.run, pure, throwIfBad, hb, copySuperType, hf, Prog.stuck]
          · simp [ht, Prog.front, Prog.run, pure, throwIfBad, hb, copySuperType, hf]
    · simp [ht, Prog.run, Prog.throw]
  · simp [hc]

variable [DecidableEq κ] (answers : κ → UaTypeAnswers κ)

/-- What the client finds for the supertype of a type: the one it knows, or that of the stack. -/
def knownSuperType (statusName : UInt32 → String) (answers : κ → UaTypeAnswers κ)
    (s : ServiceClient χ κ) (t : κ) : Outcome Exception (Option κ) :=
  match s.superTypes t with
  | some superType => .ok superType
  | none => superTypeEnd statusName (answers t) s.isConnected

/-- Two clients that find the same for every type. -/
def Agrees (statusName : UInt32 → String) (answers : κ → UaTypeAnswers κ)
    (c s : ServiceClient χ κ) : Prop :=
  s.isConnected = c.isConnected ∧
    ∀ t, knownSuperType statusName answers s t = knownSuperType statusName answers c t

/-- Remembering a supertype that was found changes nothing. -/
theorem Agrees.update {t : κ} {superType : Option κ}
    (h : Agrees statusName answers c s)
    (ht : knownSuperType statusName answers s t = .ok superType) :
    Agrees statusName answers c
      { s with superTypes := Function.update s.superTypes t (some superType) } := by
  refine ⟨h.1, fun u => ?_⟩
  rw [← h.2 u]
  by_cases hu : u = t
  · subst hu
    rw [ht]
    simp [knownSuperType]
  · simp [knownSuperType, Function.update_of_ne hu]

section Step

variable {expectedType : Option κ} {t : κ}

/-- A supertype that is known is climbed to at once. -/
theorem run_isSameOrSubtype_known (fuel : Nat) (maxDepth : UInt64)
    (hne : expectedType ≠ some t)
    {superType : Option κ} (hs : s.superTypes t = some superType) :
    (isSameOrSubtype statusName answers (fuel + 1) expectedType (some t) maxDepth).run s =
      (isSameOrSubtype statusName answers fuel expectedType superType (maxDepth - 1)).run s := by
  rw [isSameOrSubtype, if_neg hne, Prog.run_bind]
  simp [Prog.run, Prog.get, hs]

/-- Any other supertype is browsed and remembered. -/
theorem run_isSameOrSubtype_browse (fuel : Nat) (maxDepth : UInt64)
    (hne : expectedType ≠ some t)
    (hs : s.superTypes t = none) :
    (isSameOrSubtype statusName answers (fuel + 1) expectedType (some t) maxDepth).run s =
      (browseSuperType statusName (answers t) >>= fun superType => do
        Prog.modify fun c => { c with
          superTypes := Function.update c.superTypes t (some superType) }
        isSameOrSubtype statusName answers fuel expectedType superType (maxDepth - 1)).run s := by
  rw [isSameOrSubtype, if_neg hne, Prog.run_bind]
  simp [Prog.run, Prog.get, hs]

end Step

/-! ### How a climb ends -/

/-- How a climb ends, with what the client finds for every type. -/
def climbEnd (statusName : UInt32 → String) (answers : κ → UaTypeAnswers κ)
    (c : ServiceClient χ κ) (expectedType : Option κ) : ℕ → Option κ → Outcome Exception Bool
  | 0, _ => .stuck .outOfFuel
  | _ + 1, none => .ok false
  | fuel + 1, some t =>
    if expectedType = some t then .ok true else
    match knownSuperType statusName answers c t with
    | .ok superType => climbEnd statusName answers c expectedType fuel superType
    | .throw e => .throw e
    | .stuck w => .stuck w

/-- A query ends so for every client that finds the same, and goes on to find the same. -/
theorem Agrees.run_isSameOrSubtype (expectedType : Option κ) (fuel : ℕ) :
    ∀ (checkType : Option κ) (maxDepth : UInt64) {s : ServiceClient χ κ},
      Agrees statusName answers c s →
      ((isSameOrSubtype statusName answers fuel expectedType checkType maxDepth).run s).1 =
          climbEnd statusName answers c expectedType fuel checkType ∧
        ((climbEnd statusName answers c expectedType fuel checkType).Returns →
          Agrees statusName answers c ((isSameOrSubtype statusName answers fuel expectedType
            checkType maxDepth).run s).2) := by
  induction fuel with
  | zero => exact fun _ _ _ _ => ⟨rfl, fun h => h.elim⟩
  | succ fuel ih =>
    intro checkType maxDepth s hs
    cases checkType with
    | none => exact ⟨rfl, fun _ => hs⟩
    | some t =>
      by_cases hne : expectedType = some t
      · simp only [isSameOrSubtype, climbEnd, hne, if_true]
        exact ⟨rfl, fun _ => hs⟩
      rw [climbEnd, if_neg hne, ← hs.2 t, knownSuperType]
      cases hknown : s.superTypes t with
      | some known =>
        rw [run_isSameOrSubtype_known answers fuel maxDepth hne hknown]
        exact ih known (maxDepth - 1) hs
      | none =>
        rw [run_isSameOrSubtype_browse answers fuel maxDepth hne hknown, Prog.run_bind]
        obtain ⟨hend, hstays⟩ := run_browseSuperType (answers t) s statusName
        cases hfound : superTypeEnd statusName (answers t) s.isConnected with
        | ok superType =>
          rw [hfound] at hend hstays
          have hrun : (browseSuperType statusName (answers t)).run s = (.ok superType, s) :=
            Prod.ext hend (hstays trivial)
          rw [hrun]
          -- remembering what was found changes nothing
          refine ih superType (maxDepth - 1) (hs.update answers ?_)
          rw [knownSuperType, hknown]
          exact hfound
        | throw e =>
          rw [hfound] at hend
          obtain ⟨s', hrun⟩ : ∃ s', (browseSuperType statusName (answers t)).run s =
              (.throw e, s') := ⟨_, Prod.ext hend rfl⟩
          rw [hrun]
          exact ⟨rfl, fun h => h.elim⟩
        | stuck w =>
          rw [hfound] at hend
          obtain ⟨s', hrun⟩ : ∃ s', (browseSuperType statusName (answers t)).run s =
              (.stuck w, s') := ⟨_, Prod.ext hend rfl⟩
          rw [hrun]
          exact ⟨rfl, fun h => h.elim⟩

end SuperTypes

/-! ### What a climb comes to -/

section ComesTo

variable (answers : κ → UaTypeAnswers κ) (c : ServiceClient χ κ) (expectedType : Option κ)

/-- The supertype that the client remembers, or else the one that it is told. -/
def Above (t : κ) (superType : Option κ) : Prop :=
  c.superTypes t = some superType ∨
    c.superTypes t = none ∧ (answers t).Names c.isConnected superType

/-- The climb from a type to the expected one comes to another one. -/
inductive ComesTo : Option κ → Option κ → Prop
  | here (t : Option κ) : ComesTo t t
  | up {t : κ} {superType u : Option κ} (hne : expectedType ≠ some t)
    (habove : c.Above answers t superType) (h : ComesTo superType u) : ComesTo (some t) u

/-- The climb asks the stack for the supertype of a type. -/
def Asks (checkType : Option κ) (t : κ) : Prop :=
  c.ComesTo answers expectedType checkType (some t) ∧ expectedType ≠ some t ∧
    c.superTypes t = none

/-- The climb comes to the expected type. -/
def Meets (checkType : Option κ) : Prop :=
  ∃ t, expectedType = some t ∧ c.ComesTo answers expectedType checkType (some t)

/-- The climb comes to the end of the supertypes. -/
def Misses (checkType : Option κ) : Prop := c.ComesTo answers expectedType checkType none

/-- The climb comes to a type whose supertype cannot be asked for. -/
def IsRefused (checkType : Option κ) : Prop :=
  ∃ t, c.Asks answers expectedType checkType t ∧ (answers t).Refused c.isConnected

/-- The climb comes to a type whose supertype is browsed without a result. -/
def IsUnanswered (checkType : Option κ) : Prop :=
  ∃ t, c.Asks answers expectedType checkType t ∧ (answers t).Unanswered c.isConnected

/-- What has happened when a climb has ended. -/
def Explains (checkType : Option κ) : Outcome Exception Bool → Prop
  | .ok true => c.Meets answers expectedType checkType
  | .ok false => c.Misses answers expectedType checkType
  | .throw _ => c.IsRefused answers expectedType checkType
  | .stuck .undefined => c.IsUnanswered answers expectedType checkType
  | .stuck _ => True

end ComesTo

section Ends

variable {answers : κ → UaTypeAnswers κ} {expectedType : Option κ} {t : κ}
  {checkType superType u : Option κ}

variable (statusName) in
theorem superTypeEnd_spec (a : UaTypeAnswers κ) (isConnected : Bool) :
    (∀ found, superTypeEnd statusName a isConnected = .ok found ↔ a.Names isConnected found) ∧
      ((∃ e, superTypeEnd statusName a isConnected = .throw e) ↔ a.Refused isConnected) ∧
        (superTypeEnd statusName a isConnected = .stuck .undefined ↔
          a.Unanswered isConnected) := by
  have hbrowsed : a.Browsed isConnected ↔
      (isConnected && a.sessionIsConnected) = true ∧ isTypeClass a.nodeClass = true := by
    rw [UaTypeAnswers.Browsed, UaTypeAnswers.Connected, Bool.and_eq_true]
  rw [superTypeEnd, UaTypeAnswers.Refused, UaTypeAnswers.Unanswered, hbrowsed]
  simp only [UaTypeAnswers.Names, hbrowsed]
  by_cases hc : (isConnected && a.sessionIsConnected) = true
  · by_cases ht : isTypeClass a.nodeClass = true
    · cases hr : a.response.results with
      | nil => simp [hc, ht]
      | cons first rest =>
        by_cases hb : isBadStatus first.statusCode = true
        · simp [hc, ht, hb]
        · by_cases hf : copiesFreed a.response.references = true
          · simp [hc, ht, hb, hf]
          · simp [hc, ht, hb, hf]
    · simp [hc, ht]
  · simp [hc]

theorem Asks.up (hne : expectedType ≠ some t) (habove : c.Above answers t superType) {r : κ}
    (h : c.Asks answers expectedType superType r) : c.Asks answers expectedType (some t) r :=
  ⟨.up hne habove h.1, h.2⟩

/-- What happened further up has happened. -/
theorem Explains.up (hne : expectedType ≠ some t) (habove : c.Above answers t superType)
    {o : Outcome Exception Bool} (h : c.Explains answers expectedType superType o) :
    c.Explains answers expectedType (some t) o := by
  match o, h with
  | .ok true, ⟨r, hr, hcomes⟩ => exact ⟨r, hr, ComesTo.up hne habove hcomes⟩
  | .ok false, hcomes => exact ComesTo.up hne habove hcomes
  | .throw _, ⟨r, hasks, hr⟩ => exact ⟨r, hasks.up hne habove, hr⟩
  | .stuck .undefined, ⟨r, hasks, hr⟩ => exact ⟨r, hasks.up hne habove, hr⟩
  | .stuck .outOfFuel, _ => trivial
  | .stuck .freed, _ => trivial

theorem above_iff : c.Above answers t superType ↔
    knownSuperType statusName answers c t = .ok superType := by
  rw [Above, knownSuperType]
  cases c.superTypes t with
  | some known => simp
  | none => simp [(superTypeEnd_spec statusName (answers t) c.isConnected).1]

/-- What is not found was asked for. -/
theorem asked_of_knownSuperType (h : ¬ (knownSuperType statusName answers c t).Returns) :
    c.superTypes t = none ∧ knownSuperType statusName answers c t =
      superTypeEnd statusName (answers t) c.isConnected := by
  cases hknown : c.superTypes t with
  | some known => simp [knownSuperType, hknown] at h
  | none => exact ⟨rfl, by simp [knownSuperType, hknown]⟩

variable [DecidableEq κ]

variable (statusName) in
theorem explains_climbEnd (fuel : ℕ) (checkType : Option κ) :
    c.Explains answers expectedType checkType
      (climbEnd statusName answers c expectedType fuel checkType) := by
  induction fuel generalizing checkType with
  | zero => exact trivial
  | succ fuel ih =>
    cases checkType with
    | none => exact ComesTo.here none
    | some t =>
      rw [climbEnd]
      by_cases hne : expectedType = some t
      · rw [if_pos hne]
        exact ⟨t, hne, .here _⟩
      rw [if_neg hne]
      cases hfound : knownSuperType statusName answers c t with
      | ok superType => exact (ih superType).up hne (above_iff.mpr hfound)
      | throw e =>
        have hnot : ¬ (knownSuperType statusName answers c t).Returns := by simp [hfound]
        obtain ⟨hnone, hend⟩ := asked_of_knownSuperType hnot
        exact ⟨t, ⟨.here _, hne, hnone⟩,
          (superTypeEnd_spec statusName (answers t) c.isConnected).2.1.mp
            ⟨e, hend.symm.trans hfound⟩⟩
      | stuck w =>
        have hnot : ¬ (knownSuperType statusName answers c t).Returns := by simp [hfound]
        obtain ⟨hnone, hend⟩ := asked_of_knownSuperType hnot
        cases w with
        | undefined => exact ⟨t, ⟨.here _, hne, hnone⟩,
            (superTypeEnd_spec statusName (answers t) c.isConnected).2.2.mp
              (hend.symm.trans hfound)⟩
        | outOfFuel => exact trivial
        | freed => exact trivial

variable (statusName) in
/-- With fuel enough a climb goes on from every type that it comes to. -/
theorem climbEnd_of_comesTo (h : c.ComesTo answers expectedType checkType u) :
    ∃ n, ∀ fuel, climbEnd statusName answers c expectedType (fuel + n) checkType =
      climbEnd statusName answers c expectedType fuel u := by
  induction h with
  | here t => exact ⟨0, fun fuel => rfl⟩
  | up hne habove _ ih =>
    obtain ⟨n, hn⟩ := ih
    refine ⟨n + 1, fun fuel => ?_⟩
    rw [← Nat.add_assoc, climbEnd, if_neg hne, above_iff.mp habove]
    exact hn fuel

variable (statusName) in
/-- How a climb ends is decided at the type that it comes to. -/
theorem eventually_of_comesTo (h : c.ComesTo answers expectedType checkType u)
    (P : Outcome Exception Bool → Prop)
    (hP : ∀ fuel, P (climbEnd statusName answers c expectedType (fuel + 1) u)) :
    ∀ᶠ fuel in Filter.atTop, P (climbEnd statusName answers c expectedType fuel checkType) := by
  obtain ⟨n, hn⟩ := climbEnd_of_comesTo statusName h
  filter_upwards [Filter.eventually_ge_atTop (1 + n)] with fuel hfuel
  obtain ⟨k, rfl⟩ := Nat.exists_eq_add_of_le' hfuel
  rw [← Nat.add_assoc, hn]
  exact hP k

/-- A property that is found only where something holds, and is found then. -/
theorem eventually_iff {P : ℕ → Prop} {X : Prop} (hsound : ∀ fuel, P fuel → X)
    (hfound : X → ∀ᶠ fuel in Filter.atTop, P fuel) : ∀ᶠ fuel in Filter.atTop, (P fuel ↔ X) := by
  by_cases hX : X
  · exact (hfound hX).mono fun fuel h => iff_of_true h hX
  · exact .of_forall fun fuel => iff_of_false (fun h => hX (hsound fuel h)) hX

variable (statusName answers c expectedType checkType) in
/-- **How a climb ends**, with fuel enough. -/
theorem eventually_climbEnd :
    (∀ᶠ fuel in Filter.atTop,
      (climbEnd statusName answers c expectedType fuel checkType = .ok true ↔
        c.Meets answers expectedType checkType)) ∧
    (∀ᶠ fuel in Filter.atTop,
      (climbEnd statusName answers c expectedType fuel checkType = .ok false ↔
        c.Misses answers expectedType checkType)) ∧
    (∀ᶠ fuel in Filter.atTop,
      ((∃ e, climbEnd statusName answers c expectedType fuel checkType = .throw e) ↔
        c.IsRefused answers expectedType checkType)) ∧
    ∀ᶠ fuel in Filter.atTop,
      (climbEnd statusName answers c expectedType fuel checkType = .stuck .undefined ↔
        c.IsUnanswered answers expectedType checkType) := by
  have hexplains : ∀ fuel o, climbEnd statusName answers c expectedType fuel checkType = o →
      c.Explains answers expectedType checkType o :=
    fun fuel o h => h ▸ explains_climbEnd statusName fuel checkType
  -- what the end of a climb says is so; and what is so, a climb with fuel enough finds
  refine ⟨eventually_iff (fun fuel h => hexplains fuel _ h) ?_,
    eventually_iff (fun fuel h => hexplains fuel _ h) ?_,
    eventually_iff (fun fuel h => h.elim fun e he => hexplains fuel _ he) ?_,
    eventually_iff (fun fuel h => hexplains fuel _ h) ?_⟩
  · rintro ⟨t, ht, hcomes⟩
    refine eventually_of_comesTo statusName hcomes (· = .ok true) fun fuel => ?_
    rw [climbEnd, if_pos ht]
  · exact fun hcomes => eventually_of_comesTo statusName hcomes (· = .ok false) fun fuel => rfl
  · rintro ⟨t, ⟨hcomes, hne, hnone⟩, hrefused⟩
    obtain ⟨e, he⟩ := (superTypeEnd_spec statusName (answers t)
      c.isConnected).2.1.mpr hrefused
    refine eventually_of_comesTo statusName hcomes (fun o => ∃ e, o = .throw e) fun fuel => ⟨e, ?_⟩
    rw [climbEnd, if_neg hne, knownSuperType, hnone]
    simp only [he]
  · rintro ⟨t, ⟨hcomes, hne, hnone⟩, hunanswered⟩
    have hend := (superTypeEnd_spec statusName (answers t)
      c.isConnected).2.2.mpr hunanswered
    refine eventually_of_comesTo statusName hcomes (· = .stuck .undefined) fun fuel => ?_
    rw [climbEnd, if_neg hne, knownSuperType, hnone]
    simp only [hend]

end Ends

end ServiceClient

end UmatiDashboard
