import UmatiDashboard.MachineObserver.Runs

/-!
# What a search finds

Every machine on the list that a search returns has had an identification of the type configured
for it, and stands on the list either as a child of the folder that was searched or behind the
machine in whose component folder it was found (`browseForMachines_sound`). What was asked is read
off the calls that the search has made.

A machine is on the list before its components are looked for, and is entered into the table of
parents after that. An `OpcUaException` in between costs the components only; a
`MachineInvalidException` of the data client costs the entry as well.
-/

namespace UmatiDashboard

/-! ### What the calls say -/

section Calls

variable (calls : List ClientCall)

/-- A Browse of the folder returned this node. -/
def ListsChild (folder n : NodeId) : Prop :=
  ∃ l, .browse folder .hierarchical (.ok l) ∈ calls ∧ ∃ r ∈ l, r.nodeId = n

/-- The node was found in the component folder of the machine. -/
def ListsComponent (machine n : NodeId) : Prop :=
  ∃ folder, folder.isNull = false ∧
    .translateBrowsePathToNodeId machine WellKnown.componentsFolder (.ok folder) ∈ calls ∧
      ListsChild calls folder n

/-- The search for the components of the machine ended in a `MachineInvalidException`. -/
def ComponentsInvalid (machine : NodeId) : Prop :=
  ∃ e : Exception, e.isMachineInvalidException = true ∧
    (.translateBrowsePathToNodeId machine WellKnown.componentsFolder (.error e) ∈ calls ∨
      ∃ folder,
        .translateBrowsePathToNodeId machine WellKnown.componentsFolder (.ok folder) ∈ calls ∧
          .browse folder .hierarchical (.error e) ∈ calls)

variable {calls} {calls' : List ClientCall}

theorem ListsChild.mono (hcalls : calls ⊆ calls') {folder n : NodeId}
    (h : ListsChild calls folder n) : ListsChild calls' folder n := by
  obtain ⟨l, hl, hr⟩ := h
  exact ⟨l, hcalls hl, hr⟩

theorem ListsComponent.mono (hcalls : calls ⊆ calls') {machine n : NodeId}
    (h : ListsComponent calls machine n) : ListsComponent calls' machine n := by
  obtain ⟨folder, hnull, hfolder, hn⟩ := h
  exact ⟨folder, hnull, hcalls hfolder, hn.mono hcalls⟩

theorem ComponentsInvalid.mono (hcalls : calls ⊆ calls') {machine : NodeId}
    (h : ComponentsInvalid calls machine) : ComponentsInvalid calls' machine := by
  obtain ⟨e, he, hfail | ⟨folder, hfolder, hfail⟩⟩ := h
  · exact ⟨e, he, Or.inl (hcalls hfail)⟩
  · exact ⟨e, he, Or.inr ⟨folder, hcalls hfolder, hcalls hfail⟩⟩

end Calls

namespace Observer

variable {ω : Type} (o : Observer ω) {s s' s'' : ObserverState ω}

/-! ### A search only adds -/

/-- Calls and parents have been added. -/
structure Grown (s s' : ObserverState ω) : Prop where
  calls : s.world.calls ⊆ s'.world.calls
  parents : ∀ n : NodeId, n ∈ s.tables.parentOfMachine → n ∈ s'.tables.parentOfMachine

theorem Grown.refl (s : ObserverState ω) : Grown s s := ⟨List.Subset.refl _, fun _ h => h⟩

theorem Grown.trans (h : Grown s s') (h' : Grown s' s'') : Grown s s'' :=
  ⟨List.Subset.trans h.calls h'.calls, fun n hn => h'.parents n (h.parents n hn)⟩

theorem searchFrame_grown (s : ObserverState ω) : o.SearchFrame (Grown s) where
  world s' := by
    have hcall : ∀ (calls : List ClientCall) (w : Recorded ω), Grown s (s'.withWorld w) →
        Grown s (s'.withWorld ⟨(w.state), w.calls ++ calls⟩) := fun calls w h =>
      ⟨List.Subset.trans h.calls (List.subset_append_left _ _), h.parents⟩
    have hstate : ∀ (st : ω) (w : Recorded ω), Grown s (s'.withWorld w) →
        Grown s (s'.withWorld { w with state := st }) := fun st w h => ⟨h.calls, h.parents⟩
    exact ⟨fun n ctx w h => hstate _ _ (hcall _ w h), fun n ctx t w h => hstate _ _ (hcall _ w h),
      fun n q w h => hstate _ _ (hcall _ w h), fun a b depth w h => hstate _ w h,
      fun ns w h => hstate _ _ (hcall _ w h)⟩
  subTypes _ _ h := ⟨h.calls, h.parents⟩
  enter s' machineNodeId parentNodeId h := by
    refine ⟨h.calls, fun n hn => ?_⟩
    have hmem := h.parents n hn
    simp only [ObserverState.tables_put, Std.ExtTreeMap.mem_insertIfNew]
    exact Or.inr hmem

/-- A call that is recorded. -/
theorem ends_ask_recorded {α : Type} {record : Except Exception α → ClientCall}
    {f : ω → Except Exception α × ω} :
    (ask (Recorded.call record f)).Ends s fun out s' => Grown s s' ∧
      (∀ a, out = .ok a → record (.ok a) ∈ s'.world.calls) ∧
        ∀ e, out = .throw e → record (.error e) ∈ s'.world.calls := by
  rw [ends_ask]
  have hgrown : ∀ answer, Grown s (s.withWorld ⟨(f s.world.state).2,
      s.world.calls ++ [record answer]⟩) := fun answer =>
    ⟨List.subset_append_left _ _, fun _ h => h⟩
  constructor
  · intro a w h
    obtain ⟨ha, rfl⟩ := Prod.mk.inj h
    refine ⟨hgrown _, fun a' ha' => ?_, fun e he => by cases he⟩
    obtain rfl := Outcome.ok.inj ha'
    rw [ha]
    exact List.mem_append_right _ List.mem_cons_self
  · intro e w h
    obtain ⟨he, rfl⟩ := Prod.mk.inj h
    refine ⟨hgrown _, fun a ha => (by cases ha), fun e' he' => ?_⟩
    obtain rfl := Outcome.throw.inj he'
    rw [he]
    exact List.mem_append_right _ List.mem_cons_self

/-! ### Sound lists -/

/-- The machine had an identification of the type configured for it. -/
def Identified (calls : List ClientCall) (machine : BrowseResult) : Prop :=
  ∃ i, o.reader.identificationTypeOfTypeDefinition[machine.typeDefinition]? = some i ∧
    ∃ l, l ≠ [] ∧ .browseWithResultTypeFilter machine.nodeId .hierarchical i (.ok l) ∈ calls

/-- What is known of a machine on the list, given where the search began and the machines before
it on the list. -/
structure FoundAt (s : ObserverState ω) (origin : NodeId → Prop) (before : List BrowseResult)
    (machine : BrowseResult) : Prop where
  identified : o.Identified s.world.calls machine
  place : origin machine.nodeId ∨
    ∃ p ∈ before, ListsComponent s.world.calls p.nodeId machine.nodeId
  parent : machine.nodeId ∈ s.tables.parentOfMachine ∨
    ComponentsInvalid s.world.calls machine.nodeId

/-- Each machine on the list is known in view of those before it. -/
def FoundSoundly (s : ObserverState ω) (origin : NodeId → Prop)
    (machines : List BrowseResult) : Prop :=
  ∀ before machine after, machines = before ++ machine :: after →
    o.FoundAt s origin before machine

variable {o} {origin origin' : NodeId → Prop} {machines machines' before : List BrowseResult}
  {machine : BrowseResult}

theorem FoundAt.mono (hgrown : Grown s s') {before' : List BrowseResult}
    (h : o.FoundAt s origin before machine) (hbefore : before ⊆ before')
    (horigin : ∀ n, origin n → origin' n ∨
      ∃ p ∈ before', ListsComponent s'.world.calls p.nodeId n) :
    o.FoundAt s' origin' before' machine := by
  obtain ⟨⟨i, hi, l, hl, hcall⟩, hplace, hparent⟩ := h
  refine ⟨⟨i, hi, l, hl, hgrown.calls hcall⟩, ?_, ?_⟩
  · rcases hplace with hplace | ⟨p, hp, hcomponent⟩
    · exact horigin _ hplace
    · exact Or.inr ⟨p, hbefore hp, hcomponent.mono hgrown.calls⟩
  · exact hparent.imp (hgrown.parents _) (ComponentsInvalid.mono hgrown.calls)

theorem FoundSoundly.mono (h : o.FoundSoundly s origin machines) (hgrown : Grown s s')
    (horigin : ∀ n, origin n → origin' n) : o.FoundSoundly s' origin' machines :=
  fun before machine after heq => (h before machine after heq).mono hgrown
    (List.Subset.refl _) fun n hn => Or.inl (horigin n hn)

theorem foundSoundly_nil : o.FoundSoundly s origin [] :=
  fun before machine after heq => by simp at heq

theorem FoundSoundly.append (h : o.FoundSoundly s origin machines)
    (h' : o.FoundSoundly s origin machines') :
    o.FoundSoundly s origin (machines ++ machines') := by
  intro before machine after heq
  rcases List.append_eq_append_iff.mp heq with ⟨mid, rfl, hmid⟩ | ⟨mid, rfl, hmid⟩
  · exact (h' mid machine after hmid).mono (.refl s) (List.subset_append_right _ _)
      fun n hn => Or.inl hn
  · cases mid with
    | nil =>
      exact (h' [] machine after hmid.symm).mono (.refl s) (List.nil_subset _)
        fun n hn => Or.inl hn
    | cons x mid =>
      obtain ⟨rfl, -⟩ := List.cons.inj hmid
      exact h before machine mid rfl

/-- A machine with its components behind it. -/
theorem FoundSoundly.cons {components : List BrowseResult} (h : o.FoundAt s origin [] machine)
    (hcomponents : o.FoundSoundly s (ListsComponent s.world.calls machine.nodeId) components) :
    o.FoundSoundly s origin (machine :: components) := by
  intro before m after heq
  cases before with
  | nil =>
    obtain ⟨rfl, -⟩ := List.cons.inj heq
    exact h
  | cons x before =>
    obtain ⟨rfl, hrest⟩ := List.cons.inj heq
    exact (hcomponents before m after hrest).mono (.refl s) (List.subset_cons_self _ _)
      fun n hn => Or.inr ⟨machine, List.mem_cons_self, hn⟩

/-! ### The search -/

variable (o)

/-- No exception that the handlers of a candidate are for leaves the candidate. -/
theorem raises_browseCandidate
    (browse : NodeId → NodeId → Option (NodeId → Bool) → ObserverM ω (List BrowseResult))
    (parentNodeId : NodeId) (filter : Option (NodeId → Bool)) (newMachines : List BrowseResult)
    (machine : BrowseResult) :
    (browseCandidate o browse parentNodeId filter newMachines machine).Raises fun e =>
      isCandidateError e = false := by
  have hfix : (fixMissingType o machine).Raises fun e => isCandidateError e = false := by
    unfold fixMissingType
    split_ifs
    · refine Prog.raises_any.catching fun ex _ => ?_
      split_ifs with hex
      · exact Prog.raises_pure
      · refine Prog.raises_throw ?_
        cases ex with
        | std what => rfl
        | _ => exact absurd rfl hex
    · exact Prog.raises_pure
  unfold browseCandidate
  split_ifs
  · refine hfix.bind fun machine => .bind ?_ fun checked => ?_
    · refine Prog.raises_any.catching fun ex _ => ?_
      split_ifs with hex
      · exact Prog.raises_pure
      · exact Prog.raises_throw (by simpa using hex)
    · cases checked with
      | none => exact Prog.raises_pure
      | some machine =>
        refine .bind (Prog.raises_any.catching fun ex _ => ?_) fun _ => Prog.raises_pure
        split_ifs with hex
        · exact Prog.raises_pure
        · exact Prog.raises_throw (by simpa using hex)
  · exact Prog.raises_pure

/-- The search for components takes every `OpcUaException`. -/
theorem raises_findComponentsFolder
    (browse : NodeId → NodeId → Option (NodeId → Bool) → ObserverM ω (List BrowseResult))
    (nodeId : NodeId) :
    (findComponentsFolder o browse nodeId).Raises fun e => e.isOpcUaException = false := by
  refine Prog.raises_any.catching fun ex _ => ?_
  split_ifs with hex
  · exact Prog.raises_pure
  · exact Prog.raises_throw (by simpa using hex)

/-- **A candidate that passes its check** is identified. -/
theorem leaves_checkCandidate (s : ObserverState ω) (machine : BrowseResult) :
    (checkCandidate o machine).Leaves s (Grown s) fun r s' => ∀ m, r = some m →
      m.nodeId = machine.nodeId ∧ o.Identified s'.world.calls m := by
  have hframe := o.searchFrame_grown s
  refine Prog.Leaves.catching ?_ fun ex s₁ h₁ => ?_
  · refine (keeps_resolveSubType o hframe.check machine s (.refl s)).bind fun m₁ s₁ h₁ hm₁ =>
      (keeps_resolveInterface o hframe.check.steps m₁ s₁ h₁).bind fun m₂ s₂ h₂ hm₂ => ?_
    -- the call that finds the identification is the last one
    have hident : (hasIdentification o m₂).Leaves s₂ (Grown s) fun found s' =>
        found = true → o.Identified s'.world.calls m₂ := by
      refine (keeps_liftExcept s₂ h₂).bind fun i s₃ h₃ hi => ?_
      have hi := (o.reader.getIdentificationTypeNodeId_eq_ok).mp hi
      refine Prog.Leaves.bind (ends_ask_recorded.mono fun out s₄ h₄ =>
        ⟨h₃.trans h₄.1, h₄.2.1⟩) fun l s₄ h₄ hl => Prog.leaves_pure h₄ fun hfound => ?_
      refine ⟨i, hi, l, ?_, hl⟩
      rintro rfl
      simp at hfound
    refine hident.bind fun found s₃ h₃ hfound => ?_
    cases found with
    | false => exact Prog.leaves_pure h₃ fun m hm => by cases hm
    | true =>
      refine Prog.leaves_pure h₃ fun m hm => ?_
      obtain rfl := Option.some.inj hm
      exact ⟨hm₂.trans hm₁, hfound rfl⟩
  · split_ifs
    · exact Prog.leaves_pure h₁ fun m hm => by cases hm
    · exact Prog.leaves_throw h₁

/-- What a search of a folder does: its list is sound, and it throws a `MachineInvalidException`
only if the Browse of the folder does. -/
def SearchesSoundly (browse : NodeId → NodeId → Option (NodeId → Bool) →
    ObserverM ω (List BrowseResult)) : Prop :=
  ∀ (folder parent : NodeId) (filter : Option (NodeId → Bool)) (s : ObserverState ω),
    (browse folder parent filter).Ends s fun out s' => Grown s s' ∧
      (∀ l, out = .ok l → o.FoundSoundly s' (fun n => ListsChild s'.world.calls folder n ∧
        (filter.map fun f => f n).getD true = true) l) ∧
      ∀ e, out = .throw e → e.isMachineInvalidException = true →
        .browse folder .hierarchical (.error e) ∈ s'.world.calls

section Nested

variable {o} {browse : NodeId → NodeId → Option (NodeId → Bool) → ObserverM ω (List BrowseResult)}
  (hbrowse : o.SearchesSoundly browse)

include hbrowse

/-- **The search of a component folder.** -/
theorem ends_findComponentsFolder (s : ObserverState ω) (nodeId : NodeId) :
    (findComponentsFolder o browse nodeId).Ends s fun out s' => Grown s s' ∧
      (∀ l, out = .ok l → o.FoundSoundly s' (ListsComponent s'.world.calls nodeId) l) ∧
      ∀ e, out = .throw e → e.isMachineInvalidException = true →
        ComponentsInvalid s'.world.calls nodeId := by
  rw [findComponentsFolder, Prog.ends_catching, Prog.ends_bind]
  refine Prog.Ends.mono ends_ask_recorded fun out s₁ h₁ => ?_
  obtain ⟨hgrown, hok, hthrow⟩ := h₁
  -- an exception of the two calls is taken by the handler, or is the one that is thrown
  have hhandler : ∀ (ex : Exception) {s₂ : ObserverState ω}, Grown s s₂ →
      (ex.isMachineInvalidException = true → ComponentsInvalid s₂.world.calls nodeId) →
      (if ex.isOpcUaException then pure [] else Prog.throw ex :
        ObserverM ω (List BrowseResult)).Ends s₂ fun out s' => Grown s s' ∧
          (∀ l, out = .ok l → o.FoundSoundly s' (ListsComponent s'.world.calls nodeId) l) ∧
          ∀ e, out = .throw e → e.isMachineInvalidException = true →
            ComponentsInvalid s'.world.calls nodeId := by
    intro ex s₂ hgrown₂ hinvalid
    split_ifs
    · refine ⟨hgrown₂, fun l hl => ?_, fun e he => by cases he⟩
      obtain rfl := Outcome.ok.inj hl
      exact foundSoundly_nil
    · refine ⟨hgrown₂, fun l hl => (by cases hl), fun e he => ?_⟩
      obtain rfl := Outcome.throw.inj he
      exact hinvalid
  cases out with
  | stuck w => exact ⟨hgrown, fun l hl => (by cases hl), fun e he => by cases he⟩
  | throw ex =>
    exact hhandler ex hgrown fun hex => ⟨ex, hex, Or.inl (hthrow ex rfl)⟩
  | ok componentFolder =>
    have hfolder := hok componentFolder rfl
    simp only [Outcome.follow_ok]
    split_ifs with hnull
    · refine ⟨hgrown, fun l hl => ?_, fun e he => by cases he⟩
      obtain rfl := Outcome.ok.inj hl
      exact foundSoundly_nil
    · refine (hbrowse componentFolder nodeId none s₁).mono fun out s₂ h₂ => ?_
      obtain ⟨hgrown₂, hsound, hinvalid⟩ := h₂
      cases out with
      | stuck w =>
        exact ⟨hgrown.trans hgrown₂, fun l hl => (by cases hl), fun e he => by cases he⟩
      | throw ex =>
        exact hhandler ex (hgrown.trans hgrown₂) fun hex => ⟨ex, hex, Or.inr ⟨componentFolder,
          hgrown₂.calls hfolder, hinvalid ex rfl hex⟩⟩
      | ok l =>
        refine ⟨hgrown.trans hgrown₂, fun l' hl' => ?_, fun e he => by cases he⟩
        obtain rfl := Outcome.ok.inj hl'
        refine (hsound l rfl).mono (.refl s₂) fun n hn => ?_
        exact ⟨componentFolder, by simpa using hnull, hgrown₂.calls hfolder, hn.1⟩

/-- **A machine with its components.** -/
theorem leaves_enterMachine (s : ObserverState ω) (parentNodeId : NodeId)
    (machine : BrowseResult) :
    (enterMachine o browse parentNodeId machine).Leaves s (Grown s) fun components s' =>
      o.FoundSoundly s' (ListsComponent s'.world.calls machine.nodeId) components ∧
        (machine.nodeId ∈ s'.tables.parentOfMachine ∨
          ComponentsInvalid s'.world.calls machine.nodeId) := by
  rw [enterMachine, Prog.Leaves, Prog.ends_catching, Prog.ends_bind]
  have hfind := ends_findComponentsFolder hbrowse s machine.nodeId
  refine (hfind.and (raises_findComponentsFolder o browse machine.nodeId s)).mono
    fun out s₁ h₁ => ?_
  obtain ⟨⟨hgrown, hsound, hinvalid⟩, hraised⟩ := h₁
  cases out with
  | stuck w => exact ⟨hgrown, fun _ h => by cases h⟩
  | throw ex =>
    simp only [Outcome.follow_throw, Outcome.rescue_throw]
    split_ifs with hex
    · refine ⟨hgrown, fun l hl => ?_⟩
      obtain rfl := Outcome.ok.inj hl
      refine ⟨foundSoundly_nil, Or.inr (hinvalid ex rfl ?_)⟩
      rwa [isCandidateError, hraised ex rfl, Bool.false_or] at hex
    · exact ⟨hgrown, fun _ h => by cases h⟩
  | ok components =>
    simp only [Outcome.follow_ok, Prog.ends_bind, ends_record, ends_write, Prog.ends_pure,
      Outcome.rescue_ok]
    have hentered := (o.searchFrame_grown s).enter s₁ machine.nodeId parentNodeId hgrown
    refine ⟨hentered, fun l hl => ?_⟩
    obtain rfl := Outcome.ok.inj hl
    refine ⟨(hsound components rfl).mono
      ((o.searchFrame_grown s₁).enter s₁ machine.nodeId parentNodeId (.refl s₁)) fun _ h => h,
      Or.inl ?_⟩
    simp

/-- **One candidate** with the machines it adds to the list. -/
theorem leaves_browseCandidate {s : ObserverState ω} (parentNodeId : NodeId)
    (filter : Option (NodeId → Bool)) {newMachines : List BrowseResult} {machine : BrowseResult}
    {origin : NodeId → Prop}
    (horigin : (filter.map fun f => f machine.nodeId).getD true = true → origin machine.nodeId)
    (hnew : o.FoundSoundly s origin newMachines) :
    (browseCandidate o browse parentNodeId filter newMachines machine).Leaves s (Grown s)
      fun l s' => o.FoundSoundly s' origin l := by
  unfold browseCandidate
  split_ifs with hfilter
  · refine (keeps_fixMissingType o (o.searchFrame_grown s).check.steps machine s (.refl s)).bind
      fun m₁ s₁ h₁ hm₁ => ?_
    refine ((leaves_checkCandidate o s₁ m₁).weaken fun _ h => h₁.trans h).bind
      fun checked s₂ h₂ hchecked => ?_
    cases checked with
    | none => exact Prog.leaves_pure h₂ (hnew.mono h₂ fun _ h => h)
    | some m₂ =>
      obtain ⟨hm₂, hident⟩ := hchecked m₂ rfl
      have henter := leaves_enterMachine hbrowse s₂ parentNodeId m₂
      have hboth : (enterMachine o browse parentNodeId m₂).Leaves s₂ (Grown s)
          fun components s' => o.FoundSoundly s' origin (newMachines ++ m₂ :: components) := by
        refine (henter.mono fun components s₃ h₃ hq => ?_).weaken fun _ h => h₂.trans h
        obtain ⟨hcomponents, hparent⟩ := hq
        refine (hnew.mono (h₂.trans h₃) fun _ h => h).append
          (FoundSoundly.cons ⟨?_, Or.inl ?_, hparent⟩ hcomponents)
        · obtain ⟨i, hi, l, hl, hcall⟩ := hident
          exact ⟨i, hi, l, hl, h₃.calls hcall⟩
        · rw [hm₂, hm₁]
          exact horigin hfilter
      exact hboth.bind fun components s₃ h₃ hq => Prog.leaves_pure h₃ hq
  · exact Prog.leaves_pure (.refl s) hnew

end Nested

/-- **The search of a folder**, by induction on the nesting of component folders. -/
theorem searchesSoundly_browseForMachines : ∀ fuel : ℕ,
    o.SearchesSoundly (browseForMachines o fuel)
  | 0 => fun folder parent filter s =>
    ⟨.refl s, fun l hl => (by cases hl), fun e he => by cases he⟩
  | fuel + 1 => by
    intro folder parent filter s
    rw [browseForMachines, Prog.ends_bind]
    refine Prog.Ends.mono ends_ask_recorded fun out s₁ h₁ => ?_
    obtain ⟨hgrown, hok, hthrow⟩ := h₁
    cases out with
    | stuck w => exact ⟨hgrown, fun l hl => (by cases hl), fun e he => by cases he⟩
    | throw ex =>
      refine ⟨hgrown, fun l hl => (by cases hl), fun e he _ => ?_⟩
      obtain rfl := Outcome.throw.inj he
      exact hthrow ex rfl
    | ok potentialMachines =>
      have hcall := hok potentialMachines rfl
      -- the candidates that pass the filter are where the search begins
      have hfold : (Prog.foldEach (browseCandidate o (browseForMachines o fuel) parent filter) []
          potentialMachines).Leaves s₁ (Grown s₁) fun l s' => o.FoundSoundly s' (fun n =>
            (∃ r ∈ potentialMachines, r.nodeId = n) ∧
              (filter.map fun f => f n).getD true = true) l := by
        have hloop := Prog.leaves_foldEach (J := Grown s₁)
          (f := browseCandidate o (browseForMachines o fuel) parent filter)
          (fun rest l s' => (∀ r ∈ rest, r ∈ potentialMachines) ∧ o.FoundSoundly s' (fun n =>
            (∃ r ∈ potentialMachines, r.nodeId = n) ∧
              (filter.map fun f => f n).getD true = true) l)
          (fun machine rest l s' hJ hl => ?_) potentialMachines (Grown.refl s₁)
          ⟨fun r hr => hr, foundSoundly_nil⟩
        · exact hloop.mono fun l s' _ h => h.2
        · obtain ⟨hrest, hsound⟩ := hl
          refine ((leaves_browseCandidate (searchesSoundly_browseForMachines fuel) parent filter
            (fun hpass => ⟨⟨machine, hrest machine List.mem_cons_self, rfl⟩, hpass⟩)
            hsound).weaken fun _ h => hJ.trans h).mono fun l' s'' _ h =>
              ⟨fun r hr => hrest r (List.mem_cons_of_mem _ hr), h⟩
      have hraises := Prog.Raises.foldEach (raises_browseCandidate o (browseForMachines o fuel)
        parent filter) potentialMachines [] s₁
      rw [Outcome.follow_ok]
      refine (hfold.and hraises).mono fun out s₂ h₂ => ?_
      obtain ⟨⟨hgrown₂, hsound⟩, hraised⟩ := h₂
      refine ⟨hgrown.trans hgrown₂, fun l hl => ?_, fun e he hinvalid => ?_⟩
      · refine (hsound l hl).mono (.refl s₂) fun n hn => ?_
        obtain ⟨hr, hpass⟩ := hn
        exact ⟨⟨potentialMachines, hgrown₂.calls hcall, hr⟩, hpass⟩
      · have hcandidate := hraised e he
        rw [isCandidateError, hinvalid, Bool.or_true] at hcandidate
        cases hcandidate

/-- **What is found.** On the list that a search of the folder of machines returns, every machine
has had an identification object of the type configured for its type definition; it is a child of
the folder that passes the filter, or was found in the component folder of a machine before it; and
it has an entry in the table of parents, unless the search for its components ended in a
`MachineInvalidException` of the data client. -/
theorem browseForMachines_sound {fuel : ℕ} {s s' : ObserverState ω} {found : List BrowseResult}
    (hfound : (browseForMachines o fuel WellKnown.machinesFolder WellKnown.machinesFolder
      (configuredFilter o)).run s.forget = (.ok found, s')) :
    ∀ before machine after, found = before ++ machine :: after →
      (∃ i, o.reader.identificationTypeOfTypeDefinition[machine.typeDefinition]? = some i ∧
        ∃ l, l ≠ [] ∧ .browseWithResultTypeFilter machine.nodeId .hierarchical i (.ok l) ∈
          s'.world.calls) ∧
      ((ListsChild s'.world.calls WellKnown.machinesFolder machine.nodeId ∧
          (o.machinesFilter.isEmpty = true ∨ machine.nodeId ∈ o.machinesFilter)) ∨
        ∃ p ∈ before, ListsComponent s'.world.calls p.nodeId machine.nodeId) ∧
      (machine.nodeId ∈ s'.tables.parentOfMachine ∨
        ComponentsInvalid s'.world.calls machine.nodeId) := by
  intro before machine after heq
  have hsound := (searchesSoundly_browseForMachines o fuel WellKnown.machinesFolder
    WellKnown.machinesFolder (configuredFilter o) s.forget)
  rw [Prog.ends_iff_run, hfound] at hsound
  obtain ⟨hident, hplace, hparent⟩ := hsound.2.1 found rfl before machine after heq
  refine ⟨hident, hplace.imp_left fun hchild => ⟨hchild.1, ?_⟩, hparent⟩
  have hpass := hchild.2
  unfold configuredFilter at hpass
  split_ifs at hpass with hempty
  · exact Or.inl hempty
  · exact Or.inr (by simpa using hpass)

/-- The search of the plant. -/
theorem browseForMachines_sound_plant :
    ∃ (found : List BrowseResult) (s' : ObserverState (List String)),
      (browseForMachines plantObserver 2 WellKnown.machinesFolder WellKnown.machinesFolder
        (configuredFilter plantObserver)).run (plantObserver.start ["m1"]).forget =
          (.ok found, s') ∧
      ∀ before machine after, found = before ++ machine :: after →
        (∃ i, plantObserver.reader.identificationTypeOfTypeDefinition[machine.typeDefinition]? =
            some i ∧
          ∃ l, l ≠ [] ∧ .browseWithResultTypeFilter machine.nodeId .hierarchical i (.ok l) ∈
            s'.world.calls) ∧
        ((ListsChild s'.world.calls WellKnown.machinesFolder machine.nodeId ∧
            (plantObserver.machinesFilter.isEmpty = true ∨
              machine.nodeId ∈ plantObserver.machinesFilter)) ∨
          ∃ p ∈ before, ListsComponent s'.world.calls p.nodeId machine.nodeId) ∧
        (machine.nodeId ∈ s'.tables.parentOfMachine ∨
          ComponentsInvalid s'.world.calls machine.nodeId) := by
  obtain ⟨found, hfound⟩ := Outcome.returns_iff.mp (show
    ((browseForMachines plantObserver 2 WellKnown.machinesFolder WellKnown.machinesFolder
      (configuredFilter plantObserver)).run (plantObserver.start ["m1"]).forget).1.Returns by
    decide +kernel)
  exact ⟨found, _, Prod.ext hfound rfl,
    browseForMachines_sound plantObserver (Prod.ext hfound rfl)⟩

/-- The plant with a data client that throws a `MachineInvalidException` for every path. -/
def invalidPathPlant : Observer (List String) where
  client :=
    { plantClient with
      translateBrowsePathToNodeId := fun _ _ w => (.error (.machineInvalid "invalid path"), w)
      subscribe_nodeId := plantClient_subscribe_nodeId }
  reader := plantObserver.reader
  machinesFilter := ∅
  topics := plantObserver.topics

/-- A machine that is found without an entry in the table of parents. -/
theorem not_browseForMachines_sound :
    ¬ ∀ (o : Observer (List String)) (fuel : ℕ) (s s' : ObserverState (List String))
      (found : List BrowseResult),
      (browseForMachines o fuel WellKnown.machinesFolder WellKnown.machinesFolder
        (configuredFilter o)).run s.forget = (.ok found, s') →
      ∀ before machine after, found = before ++ machine :: after →
        (∃ i, o.reader.identificationTypeOfTypeDefinition[machine.typeDefinition]? = some i ∧
          ∃ l, l ≠ [] ∧ .browseWithResultTypeFilter machine.nodeId .hierarchical i (.ok l) ∈
            s'.world.calls) ∧
        ((ListsChild s'.world.calls WellKnown.machinesFolder machine.nodeId ∧
            (o.machinesFilter.isEmpty = true ∨ machine.nodeId ∈ o.machinesFilter)) ∨
          ∃ p ∈ before, ListsComponent s'.world.calls p.nodeId machine.nodeId) ∧
        machine.nodeId ∈ s'.tables.parentOfMachine := by
  intro hsound
  have hrun : ∃ found : List BrowseResult,
      ((browseForMachines invalidPathPlant 2 WellKnown.machinesFolder WellKnown.machinesFolder
        (configuredFilter invalidPathPlant)).run (invalidPathPlant.start ["m1"]).forget).1 =
          .ok found ∧ found ≠ [] := ⟨_, by with_unfolding_all rfl, by simp⟩
  have hparents : (((browseForMachines invalidPathPlant 2 WellKnown.machinesFolder
      WellKnown.machinesFolder (configuredFilter invalidPathPlant)).run
        (invalidPathPlant.start ["m1"]).forget).2.tables.parentOfMachine).isEmpty = true := by
    decide +kernel
  obtain ⟨found, hfound, hne⟩ := hrun
  obtain ⟨machine, after, rfl⟩ := List.exists_cons_of_ne_nil hne
  have hentry := (hsound invalidPathPlant 2 _ _ _ (Prod.ext hfound rfl) [] machine after rfl).2.2
  rw [Std.ExtTreeMap.isEmpty_iff] at hparents
  rw [hparents] at hentry
  exact absurd hentry Std.ExtTreeMap.not_mem_empty

end Observer

end UmatiDashboard
