import UmatiDashboard.Effect.Mapped
import UmatiDashboard.MachineObserver.FoundMachines

/-!
# The parents under which machines are found

`browseForMachinesUnder` is the search with the parents in its results: each machine comes with the
`parentNodeId` of the call that has found it. Without the parents it is the search
(`map_browseForMachinesUnder`). A search that returns enters into the table of parents what it has
found, and nothing else; what the table had before stays (`searchesUnder_browseForMachinesUnder`).
-/

namespace UmatiDashboard

namespace Observer

variable {ω : Type} (o : Observer ω)

/-! ### The search with parents -/

section Under

variable (browse : NodeId → NodeId → Option (NodeId → Bool) →
  ObserverM ω (List (BrowseResult × NodeId)))

def findComponentsFolderUnder (nodeId : NodeId) : ObserverM ω (List (BrowseResult × NodeId)) :=
  Prog.catching
    (do
      let componentFolder ←
        ask (o.data.translateBrowsePathToNodeId nodeId WellKnown.componentsFolder)
      if componentFolder.isNull then pure []
      else browse componentFolder nodeId none)
    fun ex => if ex.isOpcUaException then pure [] else .throw ex

def enterMachineUnder (parentNodeId : NodeId) (machine : BrowseResult) :
    ObserverM ω (List (BrowseResult × NodeId)) :=
  Prog.catching
    (do
      let components ← findComponentsFolderUnder o browse machine.nodeId
      record (.entering machine.nodeId)
      write fun t =>
        { t with parentOfMachine := t.parentOfMachine.insertIfNew machine.nodeId parentNodeId }
      pure components)
    fun ex => if isCandidateError ex then pure [] else .throw ex

def browseCandidateUnder (parentNodeId : NodeId) (filter : Option (NodeId → Bool))
    (newMachines : List (BrowseResult × NodeId)) (machine : BrowseResult) :
    ObserverM ω (List (BrowseResult × NodeId)) :=
  if (filter.map fun f => f machine.nodeId).getD true then do
    let machine ← fixMissingType o machine
    match ← checkCandidate o machine with
    | none => pure newMachines
    | some machine => do
      let components ← enterMachineUnder o browse parentNodeId machine
      pure (newMachines ++ (machine, parentNodeId) :: components)
  else pure newMachines

end Under

/-- The machines among the nodes below `nodeId`, and among their components, each with its
parent. -/
def browseForMachinesUnder : ℕ → NodeId → NodeId → Option (NodeId → Bool) →
    ObserverM ω (List (BrowseResult × NodeId))
  | 0, _, _, _ => .stuck .outOfFuel
  | fuel + 1, nodeId, parentNodeId, filter => do
    let potentialMachines ← ask (o.data.browse nodeId .hierarchical)
    Prog.foldEach (browseCandidateUnder o (browseForMachinesUnder fuel) parentNodeId filter) []
      potentialMachines

section Map

variable {browse : NodeId → NodeId → Option (NodeId → Bool) → ObserverM ω (List BrowseResult)}
  {browseUnder : NodeId → NodeId → Option (NodeId → Bool) →
    ObserverM ω (List (BrowseResult × NodeId))}
  (hbrowse : ∀ n p filter, List.map Prod.fst <$> browseUnder n p filter = browse n p filter)

include hbrowse

theorem map_findComponentsFolderUnder (nodeId : NodeId) :
    List.map Prod.fst <$> findComponentsFolderUnder o browseUnder nodeId =
      findComponentsFolder o browse nodeId := by
  rw [findComponentsFolderUnder, findComponentsFolder, Prog.map_catching, map_bind]
  congr 1
  · refine congrArg (ask _ >>= ·) (funext fun componentFolder => ?_)
    split_ifs
    · rfl
    · exact hbrowse _ _ _
  · funext ex
    split_ifs <;> rfl

theorem map_enterMachineUnder (parentNodeId : NodeId) (machine : BrowseResult) :
    List.map Prod.fst <$> enterMachineUnder o browseUnder parentNodeId machine =
      enterMachine o browse parentNodeId machine := by
  rw [enterMachineUnder, enterMachine, Prog.map_catching, map_bind,
    ← map_findComponentsFolderUnder o hbrowse, seq_bind_eq]
  congr 1
  funext ex
  split_ifs <;> rfl

theorem map_browseCandidateUnder (parentNodeId : NodeId) (filter : Option (NodeId → Bool))
    (newMachines : List (BrowseResult × NodeId)) (machine : BrowseResult) :
    List.map Prod.fst <$>
        browseCandidateUnder o browseUnder parentNodeId filter newMachines machine =
      browseCandidate o browse parentNodeId filter (newMachines.map Prod.fst) machine := by
  rw [browseCandidateUnder, browseCandidate]
  split_ifs
  · rw [map_bind]
    refine congrArg (fixMissingType o machine >>= ·) (funext fun machine => ?_)
    rw [map_bind]
    refine congrArg (checkCandidate o machine >>= ·) (funext fun checked => ?_)
    cases checked with
    | none => rfl
    | some machine =>
      dsimp only
      rw [map_bind, ← map_enterMachineUnder o hbrowse, seq_bind_eq]
      refine congrArg (enterMachineUnder o browseUnder parentNodeId machine >>= ·)
        (funext fun components => ?_)
      simp
  · rfl

end Map

/-- **Without the parents it is the search.** -/
theorem map_browseForMachinesUnder : ∀ (fuel : ℕ) (nodeId parentNodeId : NodeId)
    (filter : Option (NodeId → Bool)),
    List.map Prod.fst <$> browseForMachinesUnder o fuel nodeId parentNodeId filter =
      browseForMachines o fuel nodeId parentNodeId filter
  | 0, _, _, _ => rfl
  | fuel + 1, nodeId, parentNodeId, filter => by
    rw [browseForMachinesUnder, browseForMachines, map_bind]
    refine congrArg (ask _ >>= ·) (funext fun potentialMachines => ?_)
    exact Prog.map_foldEach
      (map_browseCandidateUnder o (map_browseForMachinesUnder fuel) parentNodeId filter)
      [] potentialMachines

/-! ### What is entered -/

/-- The machine is among those found, under this parent. -/
def FoundUnder (found : List (BrowseResult × NodeId)) (n parent : NodeId) : Prop :=
  ∃ machine, (machine, parent) ∈ found ∧ machine.nodeId = n

/-- The table of parents has grown by machines that were found. -/
structure Entered (s s' : ObserverState ω) (found : List (BrowseResult × NodeId)) : Prop where
  kept : ∀ n p : NodeId, s.tables.parentOfMachine[n]? = some p →
    s'.tables.parentOfMachine[n]? = some p
  new : ∀ n p : NodeId, s'.tables.parentOfMachine[n]? = some p →
    s.tables.parentOfMachine[n]? = some p ∨ FoundUnder found n p

variable {o} {s s₁ s' : ObserverState ω} {found found' : List (BrowseResult × NodeId)}

theorem FoundUnder.mono {n p : NodeId} (h : FoundUnder found n p) (hsub : found ⊆ found') :
    FoundUnder found' n p := by
  obtain ⟨machine, hmem, hid⟩ := h
  exact ⟨machine, hsub hmem, hid⟩

/-- Nothing has been entered. -/
theorem Entered.of_eq {l : List (BrowseResult × NodeId)} (h : s'.tables = s.tables) :
    Entered s s' l :=
  ⟨fun _ _ hp => by rw [h]; exact hp, fun _ _ hp => Or.inl (by rw [← h]; exact hp)⟩

theorem Entered.trans (h : Entered s s₁ found) (h' : Entered s₁ s' found') :
    Entered s s' (found ++ found') := by
  refine ⟨fun n p hp => h'.kept n p (h.kept n p hp), fun n p hp => ?_⟩
  rcases h'.new n p hp with hp | hfound
  · exact (h.new n p hp).imp_right fun hf => hf.mono (List.subset_append_left _ _)
  · exact Or.inr (hfound.mono (List.subset_append_right _ _))

/-- A machine is entered under its parent, unless it has one already. -/
theorem Entered.enter (h : Entered s s₁ found) (machine : BrowseResult) (parentNodeId : NodeId) :
    Entered s ((s₁.log (.entering machine.nodeId)).put { s₁.tables with
      parentOfMachine := s₁.tables.parentOfMachine.insertIfNew machine.nodeId parentNodeId })
      ((machine, parentNodeId) :: found) := by
  constructor
  · intro n p hp
    have hentry := h.kept n p hp
    rw [ObserverState.tables_put, Std.ExtTreeMap.getElem?_insertIfNew]
    split_ifs with hnew
    · obtain rfl := Std.LawfulEqOrd.eq_of_compare hnew.1
      exact absurd (NodeMap.mem_of_getElem? hentry) hnew.2
    · exact hentry
  · intro n p hp
    rw [ObserverState.tables_put, Std.ExtTreeMap.getElem?_insertIfNew] at hp
    split_ifs at hp with hnew
    · obtain rfl := Option.some.inj hp
      exact Or.inr ⟨machine, List.mem_cons_self, Std.LawfulEqOrd.eq_of_compare hnew.1⟩
    · exact (h.new n p hp).imp_right fun hf => hf.mono (List.subset_cons_self _ _)

/-- What a search with parents does: what it returns is what it has entered, and if it ends in an
exception that a candidate's handlers take, it has entered nothing. -/
def SearchesUnder (browse : NodeId → NodeId → Option (NodeId → Bool) →
    ObserverM ω (List (BrowseResult × NodeId))) : Prop :=
  ∀ (n p : NodeId) (filter : Option (NodeId → Bool)) (s : ObserverState ω),
    (browse n p filter).Ends s fun out s' => (∀ l, out = .ok l → Entered s s' l) ∧
      ∀ e, out = .throw e → isCandidateError e = true → s'.tables = s.tables

/-- The check of a candidate leaves the tables alone. -/
theorem checkFrame_tables (t : ObserverTables) :
    o.CheckFrame fun s : ObserverState ω => s.tables = t :=
  ⟨IgnoresWorld.readsKeep fun _ _ h => h, fun _ _ h => h⟩

/-- A call of the data client leaves them alone as well. -/
theorem ends_ask_tables {α : Type} {f : Recorded ω → Except Exception α × Recorded ω} :
    (ask f).Ends s fun _ s' => s'.tables = s.tables := by
  rw [ends_ask]
  exact ⟨fun _ _ _ => rfl, fun _ _ _ => rfl⟩

section Nested

variable {browse : NodeId → NodeId → Option (NodeId → Bool) →
    ObserverM ω (List (BrowseResult × NodeId))}
  (hbrowse : SearchesUnder browse)

include hbrowse

theorem ends_findComponentsFolderUnder (nodeId : NodeId) (s : ObserverState ω) :
    (findComponentsFolderUnder o browse nodeId).Ends s fun out s' =>
      (∀ l, out = .ok l → Entered s s' l) ∧
        ∀ e, out = .throw e → isCandidateError e = true → s'.tables = s.tables := by
  -- the handler runs where nothing has been entered, or passes the exception on
  have hhandler : ∀ (ex : Exception) {s₂ : ObserverState ω},
      (isCandidateError ex = true → s₂.tables = s.tables) →
      (if ex.isOpcUaException then pure [] else Prog.throw ex :
        ObserverM ω (List (BrowseResult × NodeId))).Ends s₂ fun out s' =>
          (∀ l, out = .ok l → Entered s s' l) ∧
            ∀ e, out = .throw e → isCandidateError e = true → s'.tables = s.tables := by
    intro ex s₂ htables
    split_ifs with hex
    · exact ⟨fun l _ => .of_eq (htables (by simp [isCandidateError, hex])), fun e he => by cases he⟩
    · refine ⟨fun l hl => (by cases hl), fun e he hcandidate => ?_⟩
      obtain rfl := Outcome.throw.inj he
      exact htables hcandidate
  rw [findComponentsFolderUnder, Prog.ends_catching, Prog.ends_bind]
  refine Prog.Ends.mono ends_ask_tables fun out s₁ h₁ => ?_
  cases out with
  | stuck w => exact ⟨fun l hl => (by cases hl), fun e he => by cases he⟩
  | throw ex => exact hhandler ex fun _ => h₁
  | ok componentFolder =>
    rw [Outcome.follow_ok]
    split_ifs
    · exact ⟨fun l _ => .of_eq h₁, fun e he => by cases he⟩
    · refine (hbrowse componentFolder nodeId none s₁).mono fun out s₂ h₂ => ?_
      cases out with
      | stuck w => exact ⟨fun l hl => (by cases hl), fun e he => by cases he⟩
      | throw ex => exact hhandler ex fun hex => (h₂.2 ex rfl hex).trans h₁
      | ok l =>
        refine ⟨fun l' hl' => ?_, fun e he => by cases he⟩
        obtain rfl := Outcome.ok.inj hl'
        exact (Entered.of_eq (l := []) h₁).trans (h₂.1 l rfl)

theorem ends_enterMachineUnder (parentNodeId : NodeId) (machine : BrowseResult)
    (s : ObserverState ω) :
    (enterMachineUnder o browse parentNodeId machine).Ends s fun out s' =>
      ∀ l, out = .ok l → Entered s s' ((machine, parentNodeId) :: l) := by
  rw [enterMachineUnder, Prog.ends_catching, Prog.ends_bind]
  refine (ends_findComponentsFolderUnder hbrowse machine.nodeId s).mono fun out s₁ h₁ => ?_
  cases out with
  | stuck w => exact fun l hl => by cases hl
  | throw ex =>
    simp only [Outcome.follow_throw, Outcome.rescue_throw]
    split_ifs with hex
    · exact fun l _ => .of_eq (h₁.2 ex rfl hex)
    · exact fun l hl => by cases hl
  | ok components =>
    simp only [Outcome.follow_ok, Prog.ends_bind, ends_record, ends_write, Prog.ends_pure,
      Outcome.rescue_ok]
    intro l hl
    obtain rfl := Outcome.ok.inj hl
    exact (h₁.1 components rfl).enter machine parentNodeId

/-- **One candidate** enters the machines that it adds to the list. -/
theorem leaves_browseCandidateUnder (parentNodeId : NodeId) (filter : Option (NodeId → Bool))
    (newMachines : List (BrowseResult × NodeId)) (machine : BrowseResult) (s : ObserverState ω)
    (hs : Entered s₁ s newMachines) :
    (browseCandidateUnder o browse parentNodeId filter newMachines machine).Leaves s
      (fun _ => True) fun l s' => Entered s₁ s' l := by
  rw [browseCandidateUnder]
  split_ifs
  · have hfix := keeps_fixMissingType o (checkFrame_tables s.tables).steps machine s rfl
    refine Prog.Leaves.bind (Q := fun _ s' => s'.tables = s.tables)
      ⟨trivial, fun _ _ => hfix.1⟩ fun m₁ s₂ _ hs₂ => ?_
    have hcheck := @keeps_checkCandidate _ o _ (fun _ => True) (checkFrame_tables s.tables).steps
      m₁ trivial s₂ hs₂
    refine Prog.Leaves.bind (Q := fun _ s' => s'.tables = s.tables)
      ⟨trivial, fun _ _ => hcheck.1⟩ fun checked s₃ _ hs₃ => ?_
    have hboth : Entered s₁ s₃ newMachines := by
      have h := hs.trans (Entered.of_eq (l := []) hs₃)
      rwa [List.append_nil] at h
    cases checked with
    | none => exact Prog.leaves_pure trivial hboth
    | some m₂ =>
      have henter := ends_enterMachineUnder (o := o) hbrowse parentNodeId m₂ s₃
      refine Prog.Leaves.bind (Q := fun l s' => Entered s₃ s' ((m₂, parentNodeId) :: l))
        ⟨trivial, henter⟩ fun components s₄ _ hs₄ => ?_
      exact Prog.leaves_pure trivial (hboth.trans hs₄)
  · exact Prog.leaves_pure trivial hs

end Nested

/-- No exception that the handlers of a candidate are for leaves the candidate. -/
theorem raises_browseCandidateUnder
    (browse : NodeId → NodeId → Option (NodeId → Bool) → ObserverM ω (List (BrowseResult × NodeId)))
    (parentNodeId : NodeId) (filter : Option (NodeId → Bool))
    (newMachines : List (BrowseResult × NodeId)) (machine : BrowseResult) :
    (browseCandidateUnder o browse parentNodeId filter newMachines machine).Raises fun e =>
      isCandidateError e = false := by
  have hraises := raises_browseCandidate o
    (fun n p filter => List.map Prod.fst <$> browse n p filter) parentNodeId filter
    (newMachines.map Prod.fst) machine
  rw [← map_browseCandidateUnder o fun _ _ _ => rfl] at hraises
  exact Prog.raises_map_iff.mp hraises

/-- **The search enters what it finds**, by induction on the nesting of component folders. -/
theorem searchesUnder_browseForMachinesUnder : ∀ fuel : ℕ,
    SearchesUnder (browseForMachinesUnder o fuel)
  | 0 => fun _ _ _ _ => ⟨fun l hl => (by cases hl), fun e he => by cases he⟩
  | fuel + 1 => by
    intro n p filter s
    rw [browseForMachinesUnder, Prog.ends_bind]
    refine Prog.Ends.mono ends_ask_tables fun out s₁ h₁ => ?_
    cases out with
    | stuck w => exact ⟨fun l hl => (by cases hl), fun e he => by cases he⟩
    | throw ex => exact ⟨fun l hl => (by cases hl), fun _ _ _ => h₁⟩
    | ok potentialMachines =>
      have hloop := Prog.leaves_foldEach (J := fun _ => True)
        (f := browseCandidateUnder o (browseForMachinesUnder o fuel) p filter)
        (fun _ l s' => Entered s s' l)
        (fun machine rest l s' _ hl => leaves_browseCandidateUnder
          (searchesUnder_browseForMachinesUnder fuel) p filter l machine s' hl)
        potentialMachines (b := []) trivial (Entered.of_eq h₁)
      have hraises := Prog.Raises.foldEach (raises_browseCandidateUnder (o := o)
        (browseForMachinesUnder o fuel) p filter) potentialMachines [] s₁
      rw [Outcome.follow_ok]
      refine (hloop.and hraises).mono fun out s₂ h₂ => ⟨h₂.1.2, fun e he hcandidate => ?_⟩
      rw [h₂.2 e he] at hcandidate
      cases hcandidate

end Observer

end UmatiDashboard
