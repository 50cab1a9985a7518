import UmatiDashboard.DataClient.Answers
import UmatiDashboard.MachineObserver.OrderOfVariables
import UmatiDashboard.Util.NestedSearch

/-!
# The plan of a search

What a search for machines does is determined by the answers of the server, the configuration and
the cache of subtypes: a candidate is a machine or not (`verdict`), and the steps of the search of
a folder follow from this (`searchSteps`). The search is a nested search with these steps, whatever
the state of the data client and of the tables is (`follows_browseForMachines`).
-/

namespace UmatiDashboard

/-- The answers of a server with its hierarchy of types. -/
structure MachineAnswers extends Answers where
  isSameOrSubtype : NodeId → NodeId → ℕ → Bool
  /-- the undefined type names no node, so no other type lies below it -/
  eq_of_undefined : ∀ md t depth, md.equals WellKnown.undefinedType = true →
    isSameOrSubtype md t depth = true → t = md

/-- The client answers as the server does, in every state. -/
structure IDashboardDataClient.AnswersMachines {ω : Type} (client : IDashboardDataClient ω)
    (A : MachineAnswers) : Prop extends client.AnswersBy A.toAnswers where
  isSameOrSubtype : ∀ expected checked depth w,
    (client.isSameOrSubtype expected checked depth w).1 = A.isSameOrSubtype expected checked depth

namespace MachineAnswers

/-- The client of a server with these answers. -/
def client (A : MachineAnswers) : IDashboardDataClient Unit :=
  { A.toAnswers.client with
    isSameOrSubtype := fun expected checked depth _ =>
      (A.isSameOrSubtype expected checked depth, ()) }

theorem answersMachines_client (A : MachineAnswers) : A.client.AnswersMachines A :=
  ⟨⟨fun _ _ _ => rfl, fun _ _ _ _ => rfl, fun _ _ _ => rfl⟩, fun _ _ _ _ => rfl⟩

end MachineAnswers

open NestedSearch (Step Ending runSteps countSteps ending effort)

/-- What the search makes of a candidate. -/
inductive Verdict where
  | machine
  | noMachine
  /-- the check ends with an exception that the search does not catch -/
  | abort
  deriving DecidableEq

section Plan

variable (A : MachineAnswers) (reader : OpcUaTypeReader) (cache : NodeMap NodeId)

/-- The type of a candidate; none if it cannot be found out. -/
def candidateType (machine : BrowseResult) : Option NodeId :=
  if machine.typeDefinition.equals WellKnown.missingType then
    match A.browse machine.nodeId .hasTypeDefinition with
    | .ok defs => defs.head?.map BrowseResult.nodeId
    | .error ex => if ex.isUmatiException then some machine.typeDefinition else none
  else some machine.typeDefinition

/-- The configured machine type above a type, or the type itself. -/
def machineTypeOf (typeDefinition : NodeId) : NodeId :=
  match cache[typeDefinition]? with
  | none => (reader.knownMachineTypeDefinitions.find? fun md =>
      A.isSameOrSubtype md typeDefinition 3).getD typeDefinition
  | some baseType => if baseType.equals WellKnown.undefinedType then typeDefinition else baseType

/-- A new entry that resolves its type as before. -/
theorem machineTypeOf_of_lookup {A : MachineAnswers} {reader : OpcUaTypeReader}
    {m m' : NodeMap NodeId} {t v : NodeId} (hnew : m'[t]? = some v)
    (hother : ∀ u : NodeId, u ≠ t → m'[u]? = m[u]?)
    (hv : machineTypeOf A reader m t = if v.equals WellKnown.undefinedType then t else v)
    (u : NodeId) : machineTypeOf A reader m' u = machineTypeOf A reader m u := by
  by_cases hu : u = t
  · subst hu
    rw [hv, machineTypeOf, hnew]
  · rw [machineTypeOf, machineTypeOf, hother u hu]

/-- The first interface of a plain object, or the type itself. -/
def interfaceOf (nodeId typeDefinition : NodeId) : Except Exception NodeId :=
  if typeDefinition.equals WellKnown.baseObjectType then do
    let ifs ← A.browse nodeId .hasInterface
    pure ((ifs.head?.map BrowseResult.nodeId).getD typeDefinition)
  else pure typeDefinition

/-- Whether a candidate of a type has an identification. -/
def isIdentified (nodeId typeDefinition : NodeId) : Except Exception Bool := do
  let typeDefinitionNodeId ← reader.getIdentificationTypeNodeId typeDefinition
  let ident ← A.browseWithResultTypeFilter nodeId .hierarchical typeDefinitionNodeId
  pure !ident.isEmpty

/-- Whether a candidate of a type is a machine, as far as the answers go. -/
def isMachine (nodeId typeDefinition : NodeId) : Except Exception Bool :=
  interfaceOf A nodeId (machineTypeOf A reader cache typeDefinition) >>=
    isIdentified A reader nodeId

/-- The verdict on a candidate that was checked. -/
def verdictOf : Except Exception Bool → Verdict
  | .ok true => .machine
  | .ok false => .noMachine
  | .error ex => if Observer.isCandidateError ex then .noMachine else .abort

/-- What the search makes of a candidate. -/
def verdict (machine : BrowseResult) : Verdict :=
  match candidateType A machine with
  | none => .abort
  | some typeDefinition => verdictOf (isMachine A reader cache machine.nodeId typeDefinition)

/-- A folder and the filter for the nodes in it. -/
abbrev SearchPlace : Type := NodeId × Option (NodeId → Bool)

/-- The step that an exception amounts to. -/
def errorStep (ex : Exception) : Step SearchPlace :=
  if Observer.isCandidateError ex then .done else .abort

/-- The search for the components of a machine. -/
def componentsStep (machineNodeId : NodeId) : Step SearchPlace :=
  match A.translateBrowsePathToNodeId machineNodeId WellKnown.componentsFolder with
  | .error ex => errorStep ex
  | .ok componentFolder => if componentFolder.isNull then .done else .nested (componentFolder, none)

/-- The step of one candidate. -/
def candidateStep (filter : Option (NodeId → Bool)) (machine : BrowseResult) : Step SearchPlace :=
  if (filter.map fun f => f machine.nodeId).getD true then
    match verdict A reader cache machine with
    | .machine => componentsStep A machine.nodeId
    | .noMachine => .done
    | .abort => .abort
  else .done

/-- The steps of the search of a folder. -/
def searchSteps (place : SearchPlace) : List (Step SearchPlace) :=
  match A.browse place.1 .hierarchical with
  | .error ex => [errorStep ex]
  | .ok potentialMachines => potentialMachines.map (candidateStep A reader cache place.2)

end Plan

namespace Observer

variable {ω : Type} {o : Observer ω} {A : MachineAnswers} {cache : NodeMap NodeId}
  {s s' : ObserverState ω}

/-- The ending that an outcome amounts to: an exception that the handlers of a candidate catch
lets the search go on. -/
def endingOf {α : Type} : Outcome Exception α → Ending
  | .ok _ => .returned
  | .throw ex => if isCandidateError ex then .returned else .aborted
  | .stuck .outOfFuel => .unfinished
  | .stuck _ => .aborted

@[simp] theorem endingOf_ok {α : Type} (a : α) :
    endingOf (.ok a : Outcome Exception α) = .returned := rfl

theorem endingOf_throw {α : Type} {ex : Exception} (h : isCandidateError ex = false) :
    endingOf (.throw ex : Outcome Exception α) = .aborted := by
  rw [endingOf, h, if_neg Bool.false_ne_true]

/-- The outcome of a check that comes to a verdict on a node. -/
def Accords (nodeId : NodeId) : Verdict → Outcome Exception (Option BrowseResult) → Prop
  | .machine, out => ∃ machine, out = .ok (some machine) ∧ machine.nodeId = nodeId
  | .noMachine, out => out = .ok none
  | .abort, out => endingOf out = .aborted

/-- The cache resolves every type as the given one does. -/
def Agrees (o : Observer ω) (A : MachineAnswers) (cache : NodeMap NodeId)
    (s : ObserverState ω) : Prop :=
  ∀ t, machineTypeOf A o.reader s.subTypes t = machineTypeOf A o.reader cache t

/-- A part of a search from `s` to `s'`: types are resolved as before, and at most `k` calls have
been made. -/
structure Explored (o : Observer ω) (A : MachineAnswers) (cache : NodeMap NodeId) (k : ℕ)
    (s s' : ObserverState ω) : Prop where
  agrees : o.Agrees A cache s'
  calls : ∃ calls, s'.world.calls = s.world.calls ++ calls ∧ calls.length ≤ k

/-- A part without calls. -/
theorem Agrees.explored {k : ℕ} (h : o.Agrees A cache s')
    (hcalls : s'.world.calls = s.world.calls) : o.Explored A cache k s s' :=
  ⟨h, [], by rw [hcalls, List.append_nil], Nat.zero_le k⟩

theorem Explored.trans {k k' : ℕ} {s'' : ObserverState ω} (h : o.Explored A cache k s s')
    (h' : o.Explored A cache k' s' s'') : o.Explored A cache (k + k') s s'' := by
  obtain ⟨calls, hcalls, hle⟩ := h.calls
  obtain ⟨calls', hcalls', hle'⟩ := h'.calls
  refine ⟨h'.agrees, calls ++ calls', by rw [hcalls', hcalls, List.append_assoc], ?_⟩
  rw [List.length_append]
  exact Nat.add_le_add hle hle'

theorem Explored.mono {k k' : ℕ} (h : o.Explored A cache k s s') (hle : k ≤ k') :
    o.Explored A cache k' s s' := by
  obtain ⟨calls, hcalls, hlength⟩ := h.calls
  exact ⟨h.agrees, calls, hcalls, hlength.trans hle⟩

/-! ### Calls -/

section Calls

variable {α : Type} {entry : Except Exception α → ClientCall} {f : ω → Except Exception α × ω}

/-- A call that is answered. -/
theorem ends_recorded_ok {a : α} {Q : Outcome Exception α → ObserverState ω → Prop}
    (hs : o.Agrees A cache s) (hf : (f s.world.state).1 = .ok a)
    (hQ : ∀ s', o.Explored A cache 1 s s' → Q (.ok a) s') :
    (ask (Recorded.call entry f)).Ends s Q := by
  rw [ends_ask_of_ok (w := ⟨(f s.world.state).2, s.world.calls ++ [entry (.ok a)]⟩)]
  · exact hQ _ ⟨hs, [_], rfl, le_rfl⟩
  · rw [Recorded.call, hf]

/-- A call that throws. -/
theorem ends_recorded_error {ex : Exception} {Q : Outcome Exception α → ObserverState ω → Prop}
    (hs : o.Agrees A cache s) (hf : (f s.world.state).1 = .error ex)
    (hQ : ∀ s', o.Explored A cache 1 s s' → Q (.throw ex) s') :
    (ask (Recorded.call entry f)).Ends s Q := by
  rw [ends_ask_of_error (w := ⟨(f s.world.state).2, s.world.calls ++ [entry (.error ex)]⟩)]
  · exact hQ _ ⟨hs, [_], rfl, le_rfl⟩
  · rw [Recorded.call, hf]

end Calls

/-! ### The check of a candidate -/

section Candidate

variable (hA : o.client.AnswersMachines A)

include hA

theorem ends_fixMissingType (hs : o.Agrees A cache s) (machine : BrowseResult) :
    (fixMissingType o machine).Ends s fun out s' => o.Explored A cache 1 s s' ∧
      (candidateType A machine = none → endingOf out = .aborted) ∧
      ∀ t, candidateType A machine = some t → out = .ok { machine with typeDefinition := t } := by
  unfold fixMissingType candidateType
  split_ifs with hmissing
  · rw [Prog.ends_catching, Prog.ends_bind]
    cases hanswer : A.browse machine.nodeId .hasTypeDefinition with
    | ok defs =>
      refine ends_recorded_ok hs ((hA.browse _ _ _).trans hanswer) fun s₁ h₁ => ?_
      cases defs with
      | nil => exact ⟨h₁, fun _ => rfl, fun t ht => by simp at ht⟩
      | cons first rest =>
        refine ⟨h₁, fun h => by simp at h, fun t ht => ?_⟩
        obtain rfl : first.nodeId = t := by simpa using ht
        rfl
    | error ex =>
      refine ends_recorded_error hs ((hA.browse _ _ _).trans hanswer) fun s₁ h₁ => ?_
      simp only [Outcome.follow_throw, Outcome.rescue_throw]
      split_ifs with hex
      · refine ⟨h₁, fun h => by simp at h, fun t ht => ?_⟩
        obtain rfl : machine.typeDefinition = t := by simpa using ht
        rfl
      · rw [Prog.ends_throw]
        refine ⟨h₁, fun _ => endingOf_throw ?_, fun t ht => by simp at ht⟩
        cases ex <;> simp_all [Exception.isUmatiException, isCandidateError,
          Exception.isOpcUaException, Exception.isMachineInvalidException]
  · rw [Prog.ends_pure]
    refine ⟨hs.explored rfl, fun h => by simp at h, fun t ht => ?_⟩
    obtain rfl : machine.typeDefinition = t := by simpa using ht
    rfl

omit hA in
theorem ends_findSupertype_plan (hA : o.client.AnswersMachines A) (t : NodeId) :
    ∀ (mds : List NodeId) (s : ObserverState ω), (findSupertype o t mds).Ends s fun out s' =>
      out = .ok (mds.find? fun md => A.isSameOrSubtype md t 3) ∧ s'.subTypes = s.subTypes ∧
        s'.world.calls = s.world.calls
  | [], s => ⟨rfl, rfl, rfl⟩
  | md :: rest, s => by
    rw [findSupertype, Prog.ends_bind, ends_askQuietly, Outcome.follow_ok]
    have hanswer : (o.data.isSameOrSubtype md t 3 s.world).1 = A.isSameOrSubtype md t 3 :=
      hA.isSameOrSubtype md t 3 s.world.state
    rw [hanswer]
    cases hsame : A.isSameOrSubtype md t 3 with
    | true => exact ⟨by simp [hsame, Prog.run, pure], rfl, rfl⟩
    | false =>
      rw [if_neg Bool.false_ne_true]
      refine Prog.Ends.mono (ends_findSupertype_plan hA t rest _) fun out s' h => ?_
      exact ⟨by simpa [hsame] using h.1, h.2.1, h.2.2⟩

theorem ends_resolveInterface (hs : o.Agrees A cache s) (machine : BrowseResult) :
    (resolveInterface o machine).Ends s fun out s' => o.Explored A cache 1 s s' ∧
      out = .ofExcept ((fun t => { machine with typeDefinition := t }) <$>
        interfaceOf A machine.nodeId machine.typeDefinition) := by
  unfold resolveInterface interfaceOf
  split_ifs
  · rw [Prog.ends_bind]
    cases hanswer : A.browse machine.nodeId .hasInterface with
    | error ex =>
      exact ends_recorded_error hs ((hA.browse _ _ _).trans hanswer) fun s₁ h₁ => ⟨h₁, rfl⟩
    | ok ifs =>
      refine ends_recorded_ok hs ((hA.browse _ _ _).trans hanswer) fun s₁ h₁ => ?_
      cases ifs with
      | nil => exact ⟨h₁, rfl⟩
      | cons first rest => exact ⟨h₁, rfl⟩
  · rw [Prog.ends_pure]
    exact ⟨hs.explored rfl, rfl⟩

theorem ends_hasIdentification (hs : o.Agrees A cache s) (machine : BrowseResult) :
    (hasIdentification o machine).Ends s fun out s' => o.Explored A cache 1 s s' ∧
      out = .ofExcept (isIdentified A o.reader machine.nodeId machine.typeDefinition) := by
  rw [hasIdentification, isIdentified, Prog.ends_bind, ends_liftExcept]
  refine ⟨fun i hi => ?_, fun ex hex => ?_⟩
  · rw [hi, Outcome.follow_ok, Prog.ends_bind]
    cases hanswer : A.browseWithResultTypeFilter machine.nodeId .hierarchical i with
    | error ex =>
      refine ends_recorded_error hs ((hA.browseWithResultTypeFilter _ _ _ _).trans hanswer)
        fun s₁ h₁ => ⟨h₁, ?_⟩
      simp only [bind, Except.bind, hanswer]
      rfl
    | ok ident =>
      refine ends_recorded_ok hs ((hA.browseWithResultTypeFilter _ _ _ _).trans hanswer)
        fun s₁ h₁ => ⟨h₁, ?_⟩
      simp only [bind, Except.bind, hanswer]
      rfl
  · rw [hex]
    exact ⟨hs.explored rfl, rfl⟩

theorem ends_resolveSubType (hs : o.Agrees A cache s) (machine : BrowseResult) :
    (resolveSubType o machine).Ends s fun out s' => o.Explored A cache 0 s s' ∧
      out = .ok { machine with
        typeDefinition := machineTypeOf A o.reader cache machine.typeDefinition } := by
  have hagrees := hs machine.typeDefinition
  rw [resolveSubType, Prog.ends_bind, Prog.ends_get, Outcome.follow_ok, ← hagrees, machineTypeOf]
  cases hentry : s.subTypes[machine.typeDefinition]? with
  | some baseType =>
    dsimp only
    split_ifs
    · exact ⟨hs.explored rfl, rfl⟩
    · exact ⟨hs.explored rfl, rfl⟩
  | none =>
    simp only [setSubType, Prog.ends_bind, Prog.ends_modify, Outcome.follow_ok]
    refine (ends_findSupertype_plan hA machine.typeDefinition _ _).mono fun out s₁ h₁ => ?_
    obtain ⟨rfl, htypes, hcalls⟩ := h₁
    have htype : machineTypeOf A o.reader s.subTypes machine.typeDefinition =
        (o.reader.knownMachineTypeDefinitions.find? fun md =>
          A.isSameOrSubtype md machine.typeDefinition 3).getD machine.typeDefinition := by
      rw [machineTypeOf, hentry]
    have hnew : machine.typeDefinition ∉ s.subTypes := by simpa using hentry
    -- the answer is cached, and the cache agrees as before
    cases hfound : o.reader.knownMachineTypeDefinitions.find? fun md =>
        A.isSameOrSubtype md machine.typeDefinition 3 with
    | none =>
      rw [hfound] at htype
      refine ⟨Agrees.explored (fun u => ?_) hcalls, rfl⟩
      change machineTypeOf A o.reader s₁.subTypes u = _
      rw [htypes, machineTypeOf_of_lookup (t := machine.typeDefinition)
        (v := WellKnown.undefinedType) (m := s.subTypes), hs u]
      · rw [Std.ExtTreeMap.getElem?_insertIfNew, if_pos ⟨Std.ReflCmp.compare_self, hnew⟩]
      · intro u hu
        simp [Std.ExtTreeMap.getElem?_insertIfNew, Ne.symm hu]
      · rw [htype, if_pos (NodeId.equals_self _)]
        rfl
    | some md =>
      rw [hfound] at htype
      refine ⟨Agrees.explored (fun u => ?_) hcalls, rfl⟩
      change machineTypeOf A o.reader (s₁.subTypes.insert machine.typeDefinition md) u = _
      rw [htypes, machineTypeOf_of_lookup (t := machine.typeDefinition) (v := md)
        (m := s.subTypes), hs u]
      · simp
      · intro u hu
        simp [Std.ExtTreeMap.getElem?_insertIfNew, Std.ExtTreeMap.getElem?_insert, Ne.symm hu]
      · rw [htype, Option.getD_some]
        split_ifs with hundefined
        · have hsame : A.isSameOrSubtype md machine.typeDefinition 3 = true := by
            simpa using List.find?_some hfound
          exact (A.eq_of_undefined md _ 3 hundefined hsame).symm
        · rfl

/-- What the check makes of a candidate whose type is known. -/
theorem ends_checkCandidate (hs : o.Agrees A cache s) (machine : BrowseResult) :
    (checkCandidate o machine).Ends s fun out s' => o.Explored A cache 2 s s' ∧
      Accords machine.nodeId
        (verdictOf (isMachine A o.reader cache machine.nodeId machine.typeDefinition)) out := by
  -- an exception of one of the calls goes to the handler
  have hhandler : ∀ (ex : Exception) (s₁ : ObserverState ω), o.Explored A cache 2 s s₁ →
      (if isCandidateError ex then pure none
        else .throw ex : ObserverM ω (Option BrowseResult)).Ends
        s₁ fun out s' => o.Explored A cache 2 s s' ∧
          Accords machine.nodeId (verdictOf (.error ex)) out := by
    intro ex s₁ h₁
    rw [verdictOf]
    cases hex : isCandidateError ex with
    | true => exact ⟨h₁, rfl⟩
    | false => exact ⟨h₁, endingOf_throw hex⟩
  rw [checkCandidate, Prog.ends_catching, Prog.ends_bind, isMachine]
  refine (ends_resolveSubType hA hs machine).mono fun out s₁ h₁ => ?_
  obtain ⟨h₁, rfl⟩ := h₁
  rw [Outcome.follow_ok, Prog.ends_bind]
  refine (ends_resolveInterface hA h₁.agrees _).mono fun out s₂ h₂ => ?_
  obtain ⟨h₂, rfl⟩ := h₂
  dsimp only
  cases interfaceOf A machine.nodeId
      (machineTypeOf A o.reader cache machine.typeDefinition) with
  | error ex => exact hhandler ex s₂ ((h₁.trans h₂).mono (by omega))
  | ok t =>
    rw [show (Outcome.ofExcept ((fun t => { machine with typeDefinition := t }) <$>
      (.ok t : Except Exception NodeId)) : Outcome Exception BrowseResult) =
        .ok { machine with typeDefinition := t } from rfl, Outcome.follow_ok, Prog.ends_bind]
    refine (ends_hasIdentification hA h₂.agrees _).mono fun out s₃ h₃ => ?_
    obtain ⟨h₃, rfl⟩ := h₃
    have h := (h₁.trans h₂).trans h₃
    dsimp only
    rw [show (.ok t >>= isIdentified A o.reader machine.nodeId : Except Exception Bool) =
      isIdentified A o.reader machine.nodeId t from rfl]
    cases isIdentified A o.reader machine.nodeId t with
    | error ex => exact hhandler ex s₃ (h.mono (by omega))
    | ok found =>
      cases found with
      | true => exact ⟨h.mono (by omega), _, rfl, rfl⟩
      | false => exact ⟨h.mono (by omega), rfl⟩

/-- **The verdict**: what the search makes of a candidate follows from the answers. -/
theorem ends_judge (hs : o.Agrees A cache s) (machine : BrowseResult) :
    (fixMissingType o machine >>= checkCandidate o).Ends s fun out s' =>
      o.Explored A cache 3 s s' ∧
        Accords machine.nodeId (verdict A o.reader cache machine) out := by
  rw [Prog.ends_bind, verdict]
  refine (ends_fixMissingType hA hs machine).mono fun out s₁ h₁ => ?_
  obtain ⟨h₁, hnone, hsome⟩ := h₁
  cases htype : candidateType A machine with
  | none =>
    have hout := hnone htype
    cases out with
    | ok m => cases hout
    | throw ex => exact ⟨h₁.mono (by omega), hout⟩
    | stuck w =>
      cases w with
      | outOfFuel => cases hout
      | undefined => exact ⟨h₁.mono (by omega), rfl⟩
      | freed => exact ⟨h₁.mono (by omega), rfl⟩
  | some t =>
    obtain rfl := hsome t htype
    rw [Outcome.follow_ok]
    refine (ends_checkCandidate hA h₁.agrees _).mono fun out s₂ h₂ => ?_
    exact ⟨(h₁.trans h₂.1).mono (by omega), h₂.2⟩

end Candidate

/-! ### The search -/

/-- A part of the search that ends as the plan says. It returns in no other way than with a
value. -/
def EndsIn {α : Type} (e : Ending) (out : Outcome Exception α) : Prop :=
  if e = .returned then ∃ a, out = .ok a else endingOf out = e

namespace EndsIn

variable {α β : Type} {e : Ending}

theorem eq_of_ok {a : α} (h : EndsIn e (.ok a : Outcome Exception α)) : e = .returned := by
  by_contra hne
  rw [EndsIn, if_neg hne] at h
  exact hne h.symm

theorem ne_of_throw {ex : Exception} (h : EndsIn e (.throw ex : Outcome Exception α)) :
    e ≠ .returned := by
  rintro rfl
  obtain ⟨a, ha⟩ := h
  cases ha

theorem ne_of_stuck {w : Stuck} (h : EndsIn e (.stuck w : Outcome Exception α)) :
    e ≠ .returned := by
  rintro rfl
  obtain ⟨a, ha⟩ := h
  cases ha

theorem ok {a : α} (h : EndsIn e (.ok a : Outcome Exception α)) (b : β) :
    EndsIn e (.ok b : Outcome Exception β) := by
  rw [EndsIn, if_pos h.eq_of_ok]
  exact ⟨b, rfl⟩

theorem throw {ex : Exception} (h : EndsIn e (.throw ex : Outcome Exception α)) :
    EndsIn e (.throw ex : Outcome Exception β) := by
  have hne := h.ne_of_throw
  rw [EndsIn, if_neg hne] at h ⊢
  exact h

theorem stuck {w : Stuck} (h : EndsIn e (.stuck w : Outcome Exception α)) :
    EndsIn e (.stuck w : Outcome Exception β) := by
  have hne := h.ne_of_stuck
  rw [EndsIn, if_neg hne] at h ⊢
  cases w with
  | outOfFuel => exact h
  | undefined => exact h
  | freed => exact h

theorem endingOf_eq {out : Outcome Exception α} (h : EndsIn e out) : endingOf out = e := by
  by_cases he : e = .returned
  · subst he
    obtain ⟨a, rfl⟩ := h
    rfl
  · rwa [EndsIn, if_neg he] at h

/-- A part that cannot return ends as its outcome says. -/
theorem of_ne {out : Outcome Exception α} (hne : e ≠ .returned) (h : endingOf out = e) :
    EndsIn e out := by
  rw [EndsIn, if_neg hne]
  exact h

end EndsIn

/-- The search of a place follows a plan, with an effort. -/
def Follows (o : Observer ω) (A : MachineAnswers) (cache : NodeMap NodeId)
    (browse : NodeId → NodeId → Option (NodeId → Bool) → ObserverM ω (List BrowseResult))
    (plan : SearchPlace → Ending) (effort : SearchPlace → ℕ) : Prop :=
  ∀ (place : SearchPlace) (parentNodeId : NodeId) (s : ObserverState ω), o.Agrees A cache s →
    (browse place.1 parentNodeId place.2).Ends s fun out s' =>
      o.Explored A cache (4 * effort place) s s' ∧ endingOf out = plan place

section Nested

variable (hA : o.client.AnswersMachines A)
  {browse : NodeId → NodeId → Option (NodeId → Bool) → ObserverM ω (List BrowseResult)}
  {plan : SearchPlace → Ending} {effort : SearchPlace → ℕ}
  (hbrowse : o.Follows A cache browse plan effort)

include hA hbrowse

/-- **`findComponentsFolder` follows its step.** -/
theorem ends_findComponentsFolder_plan (hs : o.Agrees A cache s) (nodeId : NodeId) :
    (findComponentsFolder o browse nodeId).Ends s fun out s' =>
      o.Explored A cache (4 * (componentsStep A nodeId).effort effort - 3) s s' ∧
        endingOf out = (componentsStep A nodeId).ending plan := by
  -- the handler does not change how the search ends
  have hhandler : ∀ (ex : Exception) (s₁ : ObserverState ω),
      (if ex.isOpcUaException then pure [] else .throw ex :
        ObserverM ω (List BrowseResult)).Ends s₁ fun out s' =>
          s' = s₁ ∧ endingOf out = if isCandidateError ex then .returned else .aborted := by
    intro ex s₁
    split_ifs with hopcua hcandidate hcandidate
    · exact ⟨rfl, rfl⟩
    · exact absurd (by simp [isCandidateError, hopcua]) hcandidate
    · exact ⟨rfl, if_pos hcandidate⟩
    · exact ⟨rfl, if_neg hcandidate⟩
  rw [findComponentsFolder, Prog.ends_catching, Prog.ends_bind, componentsStep]
  cases hanswer : A.translateBrowsePathToNodeId nodeId WellKnown.componentsFolder with
  | error ex =>
    refine ends_recorded_error hs ((hA.translateBrowsePathToNodeId _ _ _).trans hanswer)
      fun s₁ h₁ => ?_
    simp only [Outcome.follow_throw, Outcome.rescue_throw]
    refine (hhandler ex s₁).mono fun out s₂ h₂ => ?_
    obtain ⟨rfl, hout⟩ := h₂
    rw [hout, errorStep]
    split_ifs
    · exact ⟨h₁, rfl⟩
    · exact ⟨h₁, rfl⟩
  | ok componentFolder =>
    refine ends_recorded_ok hs ((hA.translateBrowsePathToNodeId _ _ _).trans hanswer)
      fun s₁ h₁ => ?_
    simp only [Outcome.follow_ok]
    split_ifs
    · exact ⟨h₁, rfl⟩
    · refine (hbrowse (componentFolder, none) nodeId s₁ h₁.agrees).mono fun out s₂ h₂ => ?_
      have h : o.Explored A cache (4 * (1 + effort (componentFolder, none)) - 3) s s₂ :=
        (h₁.trans h₂.1).mono (by omega)
      cases out with
      | ok l => exact ⟨h, h₂.2⟩
      | stuck w => exact ⟨h, h₂.2⟩
      | throw ex =>
        simp only [Outcome.rescue_throw]
        refine (hhandler ex s₂).mono fun out s₃ h₃ => ?_
        obtain ⟨rfl, hout⟩ := h₃
        exact ⟨h, hout.trans h₂.2⟩

theorem ends_enterMachine_plan (hs : o.Agrees A cache s) (parentNodeId : NodeId)
    (machine : BrowseResult) :
    (enterMachine o browse parentNodeId machine).Ends s fun out s' =>
      o.Explored A cache (4 * (componentsStep A machine.nodeId).effort effort - 3) s s' ∧
        EndsIn ((componentsStep A machine.nodeId).ending plan) out := by
  rw [enterMachine, Prog.ends_catching, Prog.ends_bind]
  refine (ends_findComponentsFolder_plan hA hbrowse hs machine.nodeId).mono fun out s₁ h₁ => ?_
  obtain ⟨h₁, hout⟩ := h₁
  rw [← hout]
  cases out with
  | ok components => exact ⟨⟨h₁.agrees, h₁.calls⟩, components, rfl⟩
  | stuck w =>
    refine ⟨h₁, ?_⟩
    cases w with
    | outOfFuel => rfl
    | undefined => rfl
    | freed => rfl
  | throw ex =>
    simp only [Outcome.follow_throw, Outcome.rescue_throw, endingOf]
    split_ifs with hex
    · exact ⟨h₁, [], rfl⟩
    · exact ⟨h₁, endingOf_throw (by simpa using hex)⟩

/-- **One candidate** follows its step. -/
theorem ends_browseCandidate (hs : o.Agrees A cache s) (parentNodeId : NodeId)
    (filter : Option (NodeId → Bool)) (newMachines : List BrowseResult) (machine : BrowseResult) :
    (browseCandidate o browse parentNodeId filter newMachines machine).Ends s fun out s' =>
      o.Explored A cache (4 * (candidateStep A o.reader cache filter machine).effort effort) s s' ∧
        EndsIn ((candidateStep A o.reader cache filter machine).ending plan) out := by
  unfold browseCandidate candidateStep
  split_ifs
  · rw [← bind_assoc, Prog.ends_bind]
    refine (ends_judge hA hs machine).mono fun out s₁ h₁ => ?_
    obtain ⟨h₁, haccords⟩ := h₁
    cases hverdict : verdict A o.reader cache machine with
    | noMachine =>
      rw [hverdict] at haccords
      obtain rfl : out = .ok none := haccords
      exact ⟨h₁.mono (by simp [Step.effort]), newMachines, rfl⟩
    | abort =>
      rw [hverdict] at haccords
      have hout : EndsIn .aborted out := .of_ne (by simp) haccords
      cases out with
      | ok m => cases hout.eq_of_ok
      | throw ex => exact ⟨h₁.mono (by simp [Step.effort]), hout.throw⟩
      | stuck w => exact ⟨h₁.mono (by simp [Step.effort]), hout.stuck⟩
    | machine =>
      rw [hverdict] at haccords
      obtain ⟨m, rfl, hid⟩ := haccords
      have hone := (componentsStep A machine.nodeId).one_le_effort effort
      simp only [Outcome.follow_ok, Prog.ends_bind]
      refine (ends_enterMachine_plan hA hbrowse h₁.agrees parentNodeId m).mono fun out s₂ h₂ => ?_
      rw [hid] at h₂
      obtain ⟨h₂, hout⟩ := h₂
      have h : o.Explored A cache (4 * (componentsStep A machine.nodeId).effort effort) s s₂ :=
        (h₁.trans h₂).mono (by omega)
      cases out with
      | ok components => exact ⟨⟨h.agrees, h.calls⟩, hout.ok _⟩
      | throw ex => exact ⟨h, hout.throw⟩
      | stuck w => exact ⟨h, hout.stuck⟩
  · rw [Prog.ends_pure]
    exact ⟨hs.explored rfl, newMachines, rfl⟩

/-- **The candidates of a folder** follow their steps, one after the other. -/
theorem ends_browseCandidates (parentNodeId : NodeId) (filter : Option (NodeId → Bool)) :
    ∀ (machines : List BrowseResult) (newMachines : List BrowseResult) (s : ObserverState ω),
      o.Agrees A cache s →
      (Prog.foldEach (browseCandidate o browse parentNodeId filter) newMachines machines).Ends s
        fun out s' => o.Explored A cache
            (4 * countSteps effort (machines.map (candidateStep A o.reader cache filter))) s s' ∧
          EndsIn (runSteps plan (machines.map (candidateStep A o.reader cache filter))) out
  | [], newMachines, s, hs => ⟨hs.explored rfl, newMachines, rfl⟩
  | machine :: machines, newMachines, s, hs => by
    rw [Prog.foldEach_cons, Prog.ends_bind]
    refine (ends_browseCandidate hA hbrowse hs parentNodeId filter newMachines
      machine).mono fun out s₁ h₁ => ?_
    obtain ⟨h₁, hout⟩ := h₁
    rw [List.map_cons, NestedSearch.runSteps_cons, countSteps]
    cases out with
    | throw ex =>
      refine ⟨h₁.mono (by omega), ?_⟩
      rw [if_neg hout.ne_of_throw]
      exact hout.throw
    | stuck w =>
      refine ⟨h₁.mono (by omega), ?_⟩
      rw [if_neg hout.ne_of_stuck]
      exact hout.stuck
    | ok newMachines' =>
      rw [if_pos hout.eq_of_ok, Outcome.follow_ok]
      refine (ends_browseCandidates parentNodeId filter machines newMachines' s₁ h₁.agrees).mono
        fun out s₂ h₂ => ⟨(h₁.trans h₂.1).mono (by omega), h₂.2⟩

end Nested

/-- **The search follows its plan**, with any fuel. -/
theorem follows_browseForMachines (hA : o.client.AnswersMachines A) : ∀ fuel : ℕ,
    o.Follows A cache (browseForMachines o fuel) (ending (searchSteps A o.reader cache) fuel)
      (effort (searchSteps A o.reader cache) fuel)
  | 0 => fun _ _ _ hs => ⟨hs.explored rfl, rfl⟩
  | fuel + 1 => by
    intro place parentNodeId s hs
    have ih := follows_browseForMachines hA fuel
    rw [browseForMachines, Prog.ends_bind, ending, effort, searchSteps]
    cases hanswer : A.browse place.1 .hierarchical with
    | error ex =>
      refine ends_recorded_error hs ((hA.browse _ _ _).trans hanswer) fun s₁ h₁ => ?_
      refine ⟨h₁.mono (by omega), ?_⟩
      simp only [endingOf, errorStep]
      split_ifs
      · rfl
      · rfl
    | ok potentialMachines =>
      refine ends_recorded_ok hs ((hA.browse _ _ _).trans hanswer) fun s₁ h₁ => ?_
      rw [Outcome.follow_ok]
      dsimp only
      refine (ends_browseCandidates hA ih parentNodeId place.2 potentialMachines [] s₁
        h₁.agrees).mono fun out s₂ h₂ => ?_
      exact ⟨(h₁.trans h₂.1).mono (by omega), h₂.2.endingOf_eq⟩

end Observer

end UmatiDashboard
