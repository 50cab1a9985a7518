import UmatiDashboard.Effect.Keeps
import UmatiDashboard.MachineObserver.UpdateMachines

/-!
# What the search does

The search for machines calls the data client, extends the cache of subtypes and records
parents; it touches nothing else. An invariant that its steps keep (`SearchSteps`) is kept by the
whole search; one that does not speak of the cache is a `SearchFrame`. Each machine found is a node
that a Browse of hierarchical references returned, with a type that the configuration has an
identification type for.
-/

namespace UmatiDashboard

namespace Observer

variable {ω α : Type} (o : Observer ω) {J : ObserverState ω → Prop} {C : NodeId → Prop}

/-! ### Operations that keep an invariant -/

/-- The calls of the data client that only read keep the invariant. -/
def ReadsKeep (J : ObserverState ω → Prop) : Prop :=
  ∀ s : ObserverState ω, o.data.ReadsKeep fun w => J (s.withWorld w)

/-- The invariant does not speak of the data client. -/
def IgnoresWorld (J : ObserverState ω → Prop) : Prop := ∀ s w, J s → J (s.withWorld w)

variable {o}

theorem IgnoresWorld.readsKeep (hJ : IgnoresWorld J) : o.ReadsKeep J := fun s =>
  ⟨fun _ _ w h => hJ (s.withWorld w) _ h, fun _ _ _ w h => hJ (s.withWorld w) _ h,
    fun _ _ w h => hJ (s.withWorld w) _ h, fun _ _ _ w h => hJ (s.withWorld w) _ h,
    fun _ w h => hJ (s.withWorld w) _ h⟩

theorem keeps_ask {f : Recorded ω → Except Exception α × Recorded ω}
    (hf : ∀ s : ObserverState ω, J s → J (s.withWorld (f s.world).2)) :
    (ask f).Keeps J fun a => ∃ w, (f w).1 = .ok a := fun s hs => by
  rw [Prog.Leaves, ends_ask]
  have hworld : ∀ w, (f s.world).2 = w → J (s.withWorld w) := fun w hw => hw ▸ hf s hs
  refine ⟨fun a w h => ⟨hworld w (by rw [h]), fun a' ha => ?_⟩, fun e w h =>
    ⟨hworld w (by rw [h]), fun _ h => by cases h⟩⟩
  cases ha
  exact ⟨s.world, by rw [h]⟩

section Reads

variable (hJ : o.ReadsKeep J)

include hJ

theorem keeps_browse (n : NodeId) (ctx : BrowseContext) :
    (ask (o.data.browse n ctx)).Keeps J fun a => ∃ w, (o.data.browse n ctx w).1 = .ok a :=
  keeps_ask fun s => (hJ s).browse n ctx s.world

theorem keeps_browseWithResultTypeFilter (n : NodeId) (ctx : BrowseContext) (t : NodeId) :
    (ask (o.data.browseWithResultTypeFilter n ctx t)).Keeps J fun _ => True :=
  (keeps_ask fun s => (hJ s).browseWithResultTypeFilter n ctx t s.world).trivial

theorem keeps_translateBrowsePathToNodeId (n : NodeId) (q : QualifiedName) :
    (ask (o.data.translateBrowsePathToNodeId n q)).Keeps J fun _ => True :=
  (keeps_ask fun s => (hJ s).translateBrowsePathToNodeId n q s.world).trivial

theorem keeps_readeNodeValues (ns : List NodeId) :
    (ask (o.data.readeNodeValues ns)).Keeps J fun _ => True :=
  (keeps_ask fun s => (hJ s).readeNodeValues ns s.world).trivial

theorem keeps_isSameOrSubtype (a b : NodeId) (depth : ℕ) :
    (askQuietly (o.data.isSameOrSubtype a b depth)).Keeps J fun _ => True := fun s hs =>
  ⟨(hJ s).isSameOrSubtype a b depth s.world hs, fun _ _ => True.intro⟩

end Reads

variable (o)

theorem keeps_liftExcept {r : Except Exception α} :
    (liftExcept r : ObserverM ω α).Keeps J fun a => r = .ok a := by
  cases r with
  | ok a => exact Prog.keeps_pure rfl
  | error e => exact Prog.keeps_throw

theorem leaves_tables {s : ObserverState ω} (hs : J s) :
    (tables : ObserverM ω ObserverTables).Leaves s J fun t s' => t = s.tables ∧ s' = s :=
  ⟨hs, fun _ h => by cases h; exact ⟨rfl, rfl⟩⟩

theorem keeps_record {e : ObserverEvent} (h : ∀ s : ObserverState ω, J s → J (s.log e)) :
    (record e).Keeps J fun _ => True :=
  Prog.keeps_modify h

theorem keeps_write {f : ObserverTables → ObserverTables}
    (h : ∀ s : ObserverState ω, J s → J (s.put (f s.tables))) :
    (write f).Keeps J fun _ => True :=
  Prog.keeps_modify h

/-! ### The search -/

/-- The operations of the search keep the invariant. -/
structure SearchFrame (J : ObserverState ω → Prop) : Prop where
  world : o.ReadsKeep J
  subTypes : ∀ s m, J s → J { s with subTypes := m }
  /-- a machine is recorded and entered into the table of parents in one go -/
  enter : ∀ s (machineNodeId parentNodeId : NodeId), J s →
    J ((s.log (.entering machineNodeId)).put { s.tables with
      parentOfMachine := s.tables.parentOfMachine.insertIfNew machineNodeId parentNodeId })

/-- The steps of the search keep the invariant. Other than a frame, it may speak of the cache of
subtypes. -/
structure SearchSteps (J : ObserverState ω → Prop) : Prop where
  world : o.ReadsKeep J
  resolve : ∀ machine, (resolveSubType o machine).Keeps J fun m => m.nodeId = machine.nodeId
  enter : ∀ s (machineNodeId parentNodeId : NodeId), J s →
    J ((s.log (.entering machineNodeId)).put { s.tables with
      parentOfMachine := s.tables.parentOfMachine.insertIfNew machineNodeId parentNodeId })

/-- The operations of a candidate's check keep the invariant. It may speak of the table of parents,
in which nothing is entered yet. -/
structure CheckFrame (J : ObserverState ω → Prop) : Prop where
  world : o.ReadsKeep J
  subTypes : ∀ s m, J s → J { s with subTypes := m }

/-- The steps of a candidate's check keep the invariant. -/
structure CheckSteps (J : ObserverState ω → Prop) : Prop where
  world : o.ReadsKeep J
  resolve : ∀ machine, (resolveSubType o machine).Keeps J fun m => m.nodeId = machine.nodeId

theorem SearchFrame.check {o : Observer ω} (hJ : o.SearchFrame J) : o.CheckFrame J :=
  ⟨hJ.world, hJ.subTypes⟩

theorem SearchSteps.check {o : Observer ω} (hJ : o.SearchSteps J) : o.CheckSteps J :=
  ⟨hJ.world, hJ.resolve⟩

/-- Every node that a Browse of hierarchical references returns satisfies `C`. -/
def BrowsesOnly (C : NodeId → Prop) : Prop :=
  ∀ n w l, (o.client.browse n .hierarchical w).1 = .ok l → ∀ r ∈ l, C r.nodeId

/-- A machine as the search returns it. -/
def IsMachine (C : NodeId → Prop) (machine : BrowseResult) : Prop :=
  C machine.nodeId ∧ machine.typeDefinition ∈ o.reader.identificationTypeOfTypeDefinition

theorem keeps_fixMissingType (hJ : o.CheckSteps J) (machine : BrowseResult) :
    (fixMissingType o machine).Keeps J fun m => m.nodeId = machine.nodeId := by
  unfold fixMissingType
  split_ifs
  · refine Prog.Keeps.catching ?_ fun ex => ?_
    · exact (keeps_browse hJ.world _ _).bind fun _ _ => Prog.keeps_front.bind fun _ _ =>
        Prog.keeps_pure rfl
    · split_ifs
      · exact Prog.keeps_pure rfl
      · exact Prog.keeps_throw
  · exact Prog.keeps_pure rfl

theorem keeps_findSupertype (hJ : o.CheckFrame J) (typeDefinition : NodeId) :
    ∀ mds, (findSupertype o typeDefinition mds).Keeps J fun _ => True
  | [] => Prog.keeps_pure True.intro
  | md :: rest => (keeps_isSameOrSubtype hJ.world _ _ _).bind fun same _ => by
    cases same
    · exact keeps_findSupertype hJ typeDefinition rest
    · exact Prog.keeps_pure True.intro

theorem keeps_setSubType (hJ : o.CheckFrame J) (f : NodeMap NodeId → NodeMap NodeId) :
    (setSubType f : ObserverM ω Unit).Keeps J fun _ => True :=
  Prog.keeps_modify fun s => hJ.subTypes s _

theorem keeps_resolveSubType (hJ : o.CheckFrame J) (machine : BrowseResult) :
    (resolveSubType o machine).Keeps J fun m => m.nodeId = machine.nodeId := by
  refine Prog.keeps_get.bind fun s _ => ?_
  split
  · refine (keeps_setSubType o hJ _).bind fun _ _ =>
      (keeps_findSupertype o hJ _ _).bind fun md _ => ?_
    cases md with
    | none => exact Prog.keeps_pure rfl
    | some md => exact (keeps_setSubType o hJ _).bind fun _ _ => Prog.keeps_pure rfl
  · split_ifs
    · exact Prog.keeps_pure rfl
    · exact Prog.keeps_pure rfl

/-- What does not speak of the cache of subtypes is kept when a type is resolved. -/
theorem CheckFrame.steps {o : Observer ω} (hJ : o.CheckFrame J) : o.CheckSteps J :=
  ⟨hJ.world, keeps_resolveSubType o hJ⟩

theorem SearchFrame.steps {o : Observer ω} (hJ : o.SearchFrame J) : o.SearchSteps J :=
  ⟨hJ.world, keeps_resolveSubType o hJ.check, hJ.enter⟩

theorem keeps_resolveInterface (hJ : o.CheckSteps J) (machine : BrowseResult) :
    (resolveInterface o machine).Keeps J fun m => m.nodeId = machine.nodeId := by
  unfold resolveInterface
  split_ifs
  · refine (keeps_browse hJ.world _ _).bind fun ifs _ => ?_
    cases ifs with
    | nil => exact Prog.keeps_pure rfl
    | cons first rest => exact Prog.keeps_pure rfl
  · exact Prog.keeps_pure rfl

theorem keeps_hasIdentification (hJ : o.CheckSteps J) (machine : BrowseResult) :
    (hasIdentification o machine).Keeps J fun _ =>
      machine.typeDefinition ∈ o.reader.identificationTypeOfTypeDefinition := by
  refine keeps_liftExcept.bind fun i hi =>
    (keeps_browseWithResultTypeFilter hJ.world _ _ _).bind fun _ _ => Prog.keeps_pure ?_
  rw [OpcUaTypeReader.getIdentificationTypeNodeId_eq_ok] at hi
  exact NodeMap.mem_of_getElem? hi

theorem keeps_checkCandidate (hJ : o.CheckSteps J) {machine : BrowseResult}
    (hC : C machine.nodeId) :
    (checkCandidate o machine).Keeps J fun r => ∀ m, r = some m → o.IsMachine C m := by
  refine Prog.Keeps.catching ?_ fun ex => ?_
  · refine (hJ.resolve machine).bind fun m₁ h₁ =>
      (keeps_resolveInterface o hJ m₁).bind fun m₂ h₂ =>
        (keeps_hasIdentification o hJ m₂).bind fun found hid => ?_
    cases found with
    | false => exact Prog.keeps_pure fun _ h => by cases h
    | true =>
      refine Prog.keeps_pure fun m hm => ?_
      cases hm
      exact ⟨by rw [h₂, h₁]; exact hC, hid⟩
  · split_ifs
    · exact Prog.keeps_pure fun _ h => by cases h
    · exact Prog.keeps_throw

section Nested

variable {browse : NodeId → NodeId → Option (NodeId → Bool) → ObserverM ω (List BrowseResult)}
  (hbrowse : ∀ n p f, (browse n p f).Keeps J fun l => ∀ m ∈ l, o.IsMachine C m)

include hbrowse

theorem keeps_findComponentsFolder (hJ : o.SearchSteps J) (nodeId : NodeId) :
    (findComponentsFolder o browse nodeId).Keeps J fun l => ∀ m ∈ l, o.IsMachine C m := by
  refine Prog.Keeps.catching
    ((keeps_translateBrowsePathToNodeId hJ.world _ _).bind fun componentFolder _ => ?_)
    fun ex => ?_
  · split_ifs
    · exact Prog.keeps_pure (by simp)
    · exact hbrowse _ _ _
  · split_ifs
    · exact Prog.keeps_pure (by simp)
    · exact Prog.keeps_throw

theorem keeps_enterMachine (hJ : o.SearchSteps J) (parentNodeId : NodeId) (machine : BrowseResult) :
    (enterMachine o browse parentNodeId machine).Keeps J fun l => ∀ m ∈ l, o.IsMachine C m := by
  refine Prog.Keeps.catching ?_ fun ex => ?_
  · exact (keeps_findComponentsFolder o hbrowse hJ machine.nodeId).bind fun components hc s hs =>
      ⟨hJ.enter s machine.nodeId parentNodeId hs, fun _ h => by cases h; exact hc⟩
  · split_ifs
    · exact Prog.keeps_pure (by simp)
    · exact Prog.keeps_throw

theorem keeps_browseCandidate (hJ : o.SearchSteps J) (parentNodeId : NodeId)
    (filter : Option (NodeId → Bool)) {newMachines : List BrowseResult} {machine : BrowseResult}
    (hnew : ∀ m ∈ newMachines, o.IsMachine C m) (hC : C machine.nodeId) :
    (browseCandidate o browse parentNodeId filter newMachines machine).Keeps J fun l =>
      ∀ m ∈ l, o.IsMachine C m := by
  unfold browseCandidate
  split_ifs
  · refine (keeps_fixMissingType o hJ.check machine).bind fun m₁ h₁ =>
      (keeps_checkCandidate o hJ.check (h₁ ▸ hC)).bind fun r hr => ?_
    cases r with
    | none => exact Prog.keeps_pure hnew
    | some m₂ =>
      refine (keeps_enterMachine o hbrowse hJ parentNodeId m₂).bind fun components hc =>
        Prog.keeps_pure fun m hm => ?_
      rcases List.mem_append.mp hm with h | h
      · exact hnew m h
      rcases List.mem_cons.mp h with rfl | h
      · exact hr m rfl
      · exact hc m h
  · exact Prog.keeps_pure hnew

end Nested

/-- **The search keeps what its steps keep**, and finds machines only. -/
theorem keeps_browseForMachines (hJ : o.SearchSteps J) (hC : o.BrowsesOnly C) :
    ∀ (fuel : ℕ) (nodeId parentNodeId : NodeId) (filter : Option (NodeId → Bool)),
      (browseForMachines o fuel nodeId parentNodeId filter).Keeps J fun l =>
        ∀ m ∈ l, o.IsMachine C m
  | 0, _, _, _ => Prog.keeps_stuck
  | fuel + 1, nodeId, parentNodeId, filter => by
    refine (keeps_browse hJ.world _ _).bind fun potentialMachines h => ?_
    obtain ⟨w, hw⟩ := h
    exact Prog.Keeps.foldEach (fun newMachines machine hm hnew =>
      keeps_browseCandidate o (keeps_browseForMachines hJ hC fuel) hJ parentNodeId filter hnew
        (hC nodeId w.state _ hw machine hm)) (by simp)

theorem keeps_canBrowseMachineList (hJ : o.SearchSteps J) (hC : o.BrowsesOnly C) (fuel : ℕ) :
    (canBrowseMachineList o fuel).Keeps J fun r => ∀ l, r = some l → ∀ m ∈ l, o.IsMachine C m := by
  refine Prog.Keeps.catching ?_ fun ex => ?_
  · refine (keeps_browseForMachines o hJ hC fuel _ _ _).map fun l hl l' h => ?_
    cases h
    exact hl
  · split_ifs
    · exact Prog.keeps_pure fun _ h => by cases h
    · exact Prog.keeps_throw

/-- Sorting and dropping repetitions takes machines from the list only. -/
theorem mem_of_mem_removeDuplicates {m : BrowseResult} {l : List BrowseResult}
    (h : m ∈ removeDuplicates l) : m ∈ l :=
  (List.mem_insertionSort _).mp ((List.destutter_sublist _ _).subset h)

end Observer

end UmatiDashboard
