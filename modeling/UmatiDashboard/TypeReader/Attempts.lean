import UmatiDashboard.TypeReader.ClientTypes

/-!
# Reading the types in several attempts

If the types cannot be read, `main` makes another attempt with the same type reader, which has kept
the names of the types that browsing came to. Every attempt comes to the same references in the same
order, so an attempt that fails has entered the first of the names that the next one enters
(`LinkedBrowse.FiledUpTo`). Once an attempt succeeds, the type reader is as if none had failed
(`types_complete`).
-/

namespace UmatiDashboard

/-! ### The names of the types that were met -/

/-- The types that browsing has met, and their names. -/
structure TypeNames where
  types : NodeSet
  nameToId : Std.ExtTreeMap String NodeId compare

/-- A reference is filed. -/
def TypeNames.file (names : TypeNames) (entry : BrowseResult) : TypeNames :=
  if TypeBrowse.isTypeClass entry.nodeClass && !names.types.contains entry.nodeId then
    ⟨names.types.insert entry.nodeId, names.nameToId.insertIfNew
      (entry.browseName.uri ++ ";" ++ entry.browseName.name) entry.nodeId⟩
  else names

namespace TypeBrowse

def names (st : TypeBrowse) : TypeNames := ⟨st.types, st.nameToId⟩

theorem eq_of_names {st st' : TypeBrowse} (hheap : st.heap = st'.heap)
    (hnames : st.names = st'.names) : st = st' := by
  obtain ⟨heap, types, nameToId⟩ := st
  obtain ⟨heap', types', nameToId'⟩ := st'
  obtain rfl : heap = heap' := hheap
  obtain ⟨rfl, rfl⟩ := TypeNames.mk.inj hnames
  rfl

theorem names_handleBrowseTypeResult (st : TypeBrowse) (entry : BrowseResult)
    (rule : ModellingRule) (flag : Bool) :
    (st.handleBrowseTypeResult entry rule flag).2.names = st.names.file entry := by
  unfold handleBrowseTypeResult TypeNames.file
  dsimp only [names]
  split_ifs with hnew
  · exact (if_pos hnew).symm
  · exact (if_neg hnew).symm

end TypeBrowse

mutual

/-- The references of a tree, in the order in which they are browsed. -/
def BrowseTree.entries : BrowseTree → List BrowseResult
  | .node e _ references => e :: BrowseTree.entriesAll references

def BrowseTree.entriesAll : List BrowseTree → List BrowseResult
  | [] => []
  | t :: ts => t.entries ++ BrowseTree.entriesAll ts

end

mutual

theorem TypeBrowse.names_browseTree (flag : Bool) : ∀ (t : BrowseTree) (st : TypeBrowse),
    (browseTree flag t st).2.names = t.entries.foldl TypeNames.file st.names
  | .node e rule references, st => by
    rw [browseTree, BrowseTree.entries, List.foldl_cons,
      ← names_handleBrowseTypeResult st e rule flag, ← TypeBrowse.names_browseTypes flag references]

theorem TypeBrowse.names_browseTypes (flag : Bool) : ∀ (ts : List BrowseTree) (st : TypeBrowse),
    (browseTypes flag ts st).2.names =
      (BrowseTree.entriesAll ts).foldl TypeNames.file st.names
  | [], _ => rfl
  | t :: ts, st => by
    rw [browseTypes, BrowseTree.entriesAll, List.foldl_append, ← TypeBrowse.names_browseTree flag t,
      ← TypeBrowse.names_browseTypes flag ts]

end

/-- The references below the two starting points, these included. -/
def TypeHierarchy.entries (H : TypeHierarchy) : List BrowseResult :=
  (TypeBrowse.startTree WellKnown.baseVariableType H.variableTypes).entries ++
    (TypeBrowse.startTree WellKnown.baseObjectType H.objectTypes).entries

/-- Browsing has filed the references up to some point, and all of them if it returns. -/
def LinkedBrowse.FiledUpTo (entries : List BrowseResult) (returns : Prop)
    (s s' : LinkedBrowse) : Prop :=
  ∃ filed, filed <+: entries ∧ (returns → filed = entries) ∧
    s'.types.names = filed.foldl TypeNames.file s.types.names

namespace LinkedBrowse.FiledUpTo

variable {entries entries' : List BrowseResult} {returns : Prop} {s s₁ s₂ : LinkedBrowse}

theorem none (hnot : ¬ returns) : FiledUpTo entries returns s s :=
  ⟨[], List.nil_prefix, fun h => absurd h hnot, rfl⟩

theorem append (h : FiledUpTo entries True s s₁) (h' : FiledUpTo entries' returns s₁ s₂) :
    FiledUpTo (entries ++ entries') returns s s₂ := by
  obtain ⟨filed, -, hall, hnames⟩ := h
  obtain rfl := hall trivial
  obtain ⟨filed', hprefix, hall', hnames'⟩ := h'
  exact ⟨filed ++ filed', (List.prefix_append_right_inj filed).mpr hprefix,
    fun hr => by rw [hall' hr], by rw [hnames', hnames, List.foldl_append]⟩

theorem left (h : FiledUpTo entries False s s₁) (hnot : ¬ returns) :
    FiledUpTo (entries ++ entries') returns s s₁ := by
  obtain ⟨filed, hprefix, -, hnames⟩ := h
  exact ⟨filed, hprefix.trans (List.prefix_append entries entries'), fun h => absurd h hnot, hnames⟩

theorem of_eq (h : s₁ = s) : FiledUpTo [] returns s s₁ :=
  ⟨[], List.nil_prefix, fun _ => rfl, by rw [h]; rfl⟩

end LinkedBrowse.FiledUpTo

namespace IDashboardDataClient

open LinkedBrowse (FiledUpTo)

variable {ω : Type} {client : IDashboardDataClient ω} {A : Answers} {mayFail : Prop}
  {s : LinkedBrowse × ω} {flag : Bool} {parent : Option NodeRef}

section Rules

variable {α β : Type} {entries entries' : List BrowseResult}

/-- What comes next files the next references. -/
theorem filedUpTo_bind {p : TypesM ω α} {f : α → TypesM ω β}
    (hp : p.Ends s fun out s' => FiledUpTo entries out.Returns s.1 s'.1)
    (hf : ∀ a s₁, (f a).Ends s₁ fun out s' => FiledUpTo entries' out.Returns s₁.1 s'.1) :
    (p >>= f).Ends s fun out s' => FiledUpTo (entries ++ entries') out.Returns s.1 s'.1 := by
  rw [Prog.ends_bind]
  refine hp.mono fun out s₁ hfirst => ?_
  cases out with
  | ok a => exact (hf a s₁).mono fun out s' hrest => hfirst.append hrest
  | throw e => exact hfirst.left id
  | stuck w => exact hfirst.left id

theorem filedUpTo_pure (a : α) :
    (pure a : TypesM ω α).Ends s fun out s' => FiledUpTo [] out.Returns s.1 s'.1 :=
  .of_eq rfl

theorem filedUpTo_fileType (entry : BrowseResult) (rule : ModellingRule) :
    (fileType entry rule flag parent).Ends s fun out s' =>
      FiledUpTo [entry] out.Returns s.1 s'.1 :=
  ⟨[entry], List.prefix_rfl, fun _ => rfl,
    TypeBrowse.names_handleBrowseTypeResult s.1.types entry rule flag⟩

end Rules

/-- Browsing below a node files the references of its tree in order, as far as it comes. -/
def FilesInOrder (A : Answers) (mayFail : Prop)
    (browse : NodeId → Option NodeRef → TypesM ω (List StructureBiNode)) : Prop :=
  ∀ n parent s ts, A.typeAnswers.browse n = .ok (ts.map BrowseTree.entry) →
    BrowseTree.SeenByAll A mayFail ts → (browse n parent).Ends s fun out s' =>
      FiledUpTo (BrowseTree.entriesAll ts) out.Returns s.1 s'.1

variable {browse : NodeId → Option NodeRef → TypesM ω (List StructureBiNode)}

/-- One reference. -/
theorem filedUpTo_browseTypeResult (hclient : client.BrowsesAs A mayFail)
    (hbrowse : FilesInOrder A mayFail browse) (children : List StructureBiNode) {t : BrowseTree}
    (hseen : t.SeenBy A mayFail) :
    (client.browseTypeResult flag browse parent children t.entry).Ends s fun out s' =>
      FiledUpTo t.entries out.Returns s.1 s'.1 := by
  obtain ⟨entry, treeRule, references⟩ := t
  have hentries : [] ++ ([entry] ++ (BrowseTree.entriesAll references ++ [])) =
      (BrowseTree.node entry treeRule references).entries := by
    rw [List.append_nil]
    rfl
  have hrule : (client.modellingRule entry.nodeId).Ends s fun out s' =>
      FiledUpTo [] out.Returns s.1 s'.1 :=
    Prog.Ends.mono (leaves_modellingRule hclient entry.nodeId) fun _ _ h => .of_eq h.1
  rw [← hentries]
  refine filedUpTo_bind hrule fun rule s₁ => ?_
  refine filedUpTo_bind (filedUpTo_fileType entry rule) fun current s₂ => ?_
  refine filedUpTo_bind (hbrowse entry.nodeId _ s₂ references hseen.2.1 hseen.2.2)
    fun below s₃ => ?_
  exact filedUpTo_pure _

/-- **The references of one answer**, one after the other. -/
theorem filedUpTo_browseTypeResults (hclient : client.BrowsesAs A mayFail)
    (hbrowse : FilesInOrder A mayFail browse) :
    ∀ (ts : List BrowseTree) (children : List StructureBiNode) (s : LinkedBrowse × ω),
      BrowseTree.SeenByAll A mayFail ts →
      (Prog.foldEach (client.browseTypeResult flag browse parent) children
        (ts.map BrowseTree.entry)).Ends s fun out s' =>
          FiledUpTo (BrowseTree.entriesAll ts) out.Returns s.1 s'.1
  | [], children, _, _ => filedUpTo_pure children
  | t :: ts, children, s, hseen => by
    rw [List.map_cons, Prog.foldEach_cons, BrowseTree.entriesAll]
    refine filedUpTo_bind (filedUpTo_browseTypeResult hclient hbrowse children hseen.1)
      fun children' s₁ => ?_
    exact filedUpTo_browseTypeResults hclient hbrowse ts children' s₁ hseen.2

theorem filesInOrder_browseTypes (hclient : client.BrowsesAs A mayFail) : ∀ fuel : ℕ,
    FilesInOrder A mayFail (client.browseTypes flag fuel)
  | 0 => fun _ _ _ _ _ _ => .none id
  | fuel + 1 => by
    intro n parent s ts hanswer hseen
    rw [browseTypes, Prog.ends_bind, ends_askTypes]
    -- if the Browse fails, none of the references is filed
    refine ⟨fun results hresults => ?_, fun e he => .none id⟩
    obtain rfl := Except.ok.inj ((hclient.eq_of_ok hresults).symm.trans hanswer)
    rw [Outcome.follow_ok]
    exact filedUpTo_browseTypeResults hclient (filesInOrder_browseTypes hclient fuel) ts [] _ hseen

/-- Browsing from one starting point. -/
theorem filedUpTo_browseTypesFrom (hclient : client.BrowsesAs A mayFail) (fuel : ℕ)
    {start : NodeId} {ts : List BrowseTree}
    (hanswer : A.typeAnswers.browse start = .ok (ts.map BrowseTree.entry))
    (hseen : BrowseTree.SeenByAll A mayFail ts) :
    (client.browseTypesFrom fuel start flag).Ends s fun out s' =>
      FiledUpTo (TypeBrowse.startTree start ts).entries out.Returns s.1 s'.1 := by
  have hentries : [TypeBrowse.startEntry start] ++ (BrowseTree.entriesAll ts ++ []) =
      (TypeBrowse.startTree start ts).entries := by
    rw [List.append_nil]
    rfl
  rw [← hentries]
  refine filedUpTo_bind (filedUpTo_fileType _ .mandatory) fun startType s₁ => ?_
  refine filedUpTo_bind (filesInOrder_browseTypes hclient fuel start _ s₁ ts hanswer hseen)
    fun below s₂ => ?_
  exact filedUpTo_pure _

/-- **Browsing the hierarchy**, which fails or returns. -/
theorem filedUpTo_browseHierarchy (hclient : client.BrowsesAs A mayFail) (fuel : ℕ)
    {H : TypeHierarchy} (hH : H.SeenBy A mayFail) :
    (client.browseHierarchy fuel).Ends s fun out s' =>
      FiledUpTo H.entries out.Returns s.1 s'.1 := by
  rw [browseHierarchy, TypeHierarchy.entries]
  refine filedUpTo_bind
    (filedUpTo_browseTypesFrom hclient fuel hH.browseVariableTypes hH.variableTypes)
    fun variableTypes s₁ => ?_
  rw [← List.append_nil (BrowseTree.entries _)]
  refine filedUpTo_bind
    (filedUpTo_browseTypesFrom hclient fuel hH.browseObjectTypes hH.objectTypes)
    fun objectTypes s₂ => ?_
  exact .of_eq rfl

end IDashboardDataClient

/-! ### Another attempt -/

theorem TypeNames.mem_file {key : String} {names : TypeNames} (h : key ∈ names.nameToId)
    (entry : BrowseResult) : key ∈ (names.file entry).nameToId := by
  rw [file]
  split_ifs
  · exact Std.ExtTreeMap.mem_insertIfNew.mpr (.inr h)
  · exact h

theorem TypeNames.mem_foldl_file {key : String} : ∀ (entries : List BrowseResult)
    {names : TypeNames}, key ∈ names.nameToId → key ∈ (entries.foldl file names).nameToId
  | [], _, h => h
  | entry :: entries, _, h => mem_foldl_file entries (mem_file h entry)

/-- A name that is there already is not entered anew. -/
theorem TypeNames.insertIfNew_of_mem {M : Std.ExtTreeMap String NodeId compare} {key : String}
    (h : key ∈ M) (n : NodeId) : M.insertIfNew key n = M :=
  Std.ExtTreeMap.ext_getElem? fun k => by
    rw [Std.ExtTreeMap.getElem?_insertIfNew]
    split_ifs with hk
    · obtain rfl := Std.LawfulEqOrd.eq_of_compare hk.1
      exact absurd h hk.2
    · rfl

/-- Browsing once more meets the same types, and enters no name. -/
theorem TypeNames.foldl_file_of_mem {M : Std.ExtTreeMap String NodeId compare} :
    ∀ (entries : List BrowseResult) (names : TypeNames),
      (∀ key ∈ (entries.foldl file names).nameToId, key ∈ M) →
      entries.foldl file ⟨names.types, M⟩ = ⟨(entries.foldl file names).types, M⟩
  | [], _, _ => rfl
  | entry :: entries, names, h => by
    have hentry : file ⟨names.types, M⟩ entry = ⟨(names.file entry).types, M⟩ := by
      have hkeys : ∀ key ∈ (names.file entry).nameToId, key ∈ M := fun key hkey =>
        h key (mem_foldl_file entries hkey)
      unfold file at hkeys ⊢
      dsimp only
      split_ifs with hnew
      · rw [if_pos hnew] at hkeys
        rw [insertIfNew_of_mem (hkeys _ (Std.ExtTreeMap.mem_insertIfNew.mpr (.inl (by simp))))]
      · rfl
    rw [List.foldl_cons, hentry, List.foldl_cons]
    exact foldl_file_of_mem entries (names.file entry) h

/-- **Browsing once more**, after an attempt that came up to some point: the names are those of an
attempt that was not made before. -/
theorem TypeNames.foldl_file_again {filed entries : List BrowseResult} (h : filed <+: entries)
    (names : TypeNames) :
    entries.foldl file ⟨names.types, (filed.foldl file names).nameToId⟩ =
      entries.foldl file names := by
  obtain ⟨rest, rfl⟩ := h
  rw [List.foldl_append, List.foldl_append, foldl_file_of_mem filed names fun _ hkey => hkey]

mutual

/-- The nodes do not depend on the names. -/
theorem TypeBrowse.browseTree_congr (flag : Bool) : ∀ (t : BrowseTree) (st st' : TypeBrowse),
    st.heap = st'.heap → st.types = st'.types →
    (browseTree flag t st).1 = (browseTree flag t st').1 ∧
      (browseTree flag t st).2.heap = (browseTree flag t st').2.heap ∧
      (browseTree flag t st).2.types = (browseTree flag t st').2.types
  | .node e rule references, st, st', hheap, htypes => by
    have hfile : (st.handleBrowseTypeResult e rule flag).1 =
          (st'.handleBrowseTypeResult e rule flag).1 ∧
        (st.handleBrowseTypeResult e rule flag).2.heap =
          (st'.handleBrowseTypeResult e rule flag).2.heap ∧
        (st.handleBrowseTypeResult e rule flag).2.types =
          (st'.handleBrowseTypeResult e rule flag).2.types := by
      unfold handleBrowseTypeResult
      dsimp only
      rw [hheap, htypes]
      split_ifs <;> exact ⟨rfl, rfl, rfl⟩
    obtain ⟨hnode, hheap', htypes'⟩ := hfile
    obtain ⟨hbelow, hrest⟩ := TypeBrowse.browseTypes_congr flag references _ _ hheap' htypes'
    refine ⟨?_, hrest⟩
    rw [browseTree, browseTree]
    dsimp only
    rw [hnode, hbelow]

theorem TypeBrowse.browseTypes_congr (flag : Bool) : ∀ (ts : List BrowseTree)
    (st st' : TypeBrowse),
    st.heap = st'.heap → st.types = st'.types →
    (browseTypes flag ts st).1 = (browseTypes flag ts st').1 ∧
      (browseTypes flag ts st).2.heap = (browseTypes flag ts st').2.heap ∧
      (browseTypes flag ts st).2.types = (browseTypes flag ts st').2.types
  | [], _, _, hheap, htypes => ⟨rfl, hheap, htypes⟩
  | t :: ts, st, st', hheap, htypes => by
    obtain ⟨hfirst, hheap', htypes'⟩ := TypeBrowse.browseTree_congr flag t st st' hheap htypes
    obtain ⟨hothers, hrest⟩ := TypeBrowse.browseTypes_congr flag ts _ _ hheap' htypes'
    refine ⟨?_, hrest⟩
    rw [browseTypes, browseTypes]
    dsimp only
    rw [hfirst, hothers]

end

/-- The names after browsing a hierarchy. -/
theorem TypeHierarchy.names_browse (H : TypeHierarchy)
    (nameToId : Std.ExtTreeMap String NodeId compare) :
    (H.browse nameToId).2.names =
      H.entries.foldl TypeNames.file (TypeBrowse.start nameToId).names := by
  rw [entries, List.foldl_append, ← TypeBrowse.names_browseTree true,
    ← TypeBrowse.names_browseTree false]
  rfl

/-- Browsing with the names of an attempt that came up to some point. -/
theorem TypeHierarchy.browse_again (H : TypeHierarchy) {filed : List BrowseResult}
    (h : filed <+: H.entries) (nameToId : Std.ExtTreeMap String NodeId compare) :
    H.browse (filed.foldl TypeNames.file (TypeBrowse.start nameToId).names).nameToId =
      H.browse nameToId := by
  generalize hagain : (filed.foldl TypeNames.file (TypeBrowse.start nameToId).names).nameToId =
    again
  have hnames : (H.browse again).2.names = (H.browse nameToId).2.names := by
    rw [H.names_browse, H.names_browse,
      ← TypeNames.foldl_file_again h (TypeBrowse.start nameToId).names, hagain]
    rfl
  obtain ⟨hv, hvheap, hvtypes⟩ := TypeBrowse.browseTree_congr true
    (TypeBrowse.startTree WellKnown.baseVariableType H.variableTypes) (.start again)
    (.start nameToId) rfl rfl
  obtain ⟨ho, hoheap, -⟩ := TypeBrowse.browseTree_congr false
    (TypeBrowse.startTree WellKnown.baseObjectType H.objectTypes) _ _ hvheap hvtypes
  refine Prod.ext ?_ (TypeBrowse.eq_of_names hoheap hnames)
  rw [browse, browse]
  dsimp only
  rw [hv, ho]

/-- **An attempt after others** reads the types as if these had not been made. -/
theorem OpcUaTypeReader.readTypes_again (reader : OpcUaTypeReader) {H : TypeHierarchy}
    {filed : List BrowseResult} (h : filed <+: H.entries) (namespaces : List String) :
    { reader with nameToId := (filed.foldl TypeNames.file
      (TypeBrowse.start reader.nameToId).names).nameToId }.readTypes H namespaces =
        reader.readTypes H namespaces := by
  rw [← fill_browse, ← fill_browse]
  dsimp only
  rw [H.browse_again h]
  rfl

/-! ### The loop of `main` -/

namespace IDashboardDataClient

variable {ω : Type} {client : IDashboardDataClient ω} {A : Answers} {mayFail : Prop}

/-- An attempt that returns has read the types of the server. One that does not return leaves
nothing behind that the next ones would notice. -/
theorem ends_readTypes (hclient : client.BrowsesAs A mayFail) (fuel : ℕ)
    (namespaces : List String) (r : OpcUaTypeReader × ω) :
    (client.readTypes fuel namespaces).Ends r fun out r' =>
      (out.Returns → ∃ H : TypeHierarchy, H.SeenBy A mayFail ∧
        r'.1 = r.1.readTypes H namespaces) ∧
      (¬ out.Returns → ∀ H : TypeHierarchy, H.SeenBy A mayFail →
        r'.1.readTypes H namespaces = r.1.readTypes H namespaces) := by
  have htrace : (client.browseHierarchy fuel).Ends (.start r.1.nameToId, r.2) fun out s' =>
      ∀ H : TypeHierarchy, H.SeenBy A mayFail →
        LinkedBrowse.FiledUpTo H.entries out.Returns (.start r.1.nameToId) s'.1 :=
    fun H hH => filedUpTo_browseHierarchy hclient fuel hH
  have hagain : ∀ (s' : LinkedBrowse × ω) (returns : Prop) (H : TypeHierarchy),
      LinkedBrowse.FiledUpTo H.entries returns (.start r.1.nameToId) s'.1 →
      { r.1 with nameToId := s'.1.types.nameToId }.readTypes H namespaces =
        r.1.readTypes H namespaces := by
    rintro s' returns H ⟨filed, hprefix, -, hnames⟩
    have hnameToId : s'.1.types.nameToId =
        (filed.foldl TypeNames.file (TypeBrowse.start r.1.nameToId).names).nameToId :=
      congrArg TypeNames.nameToId hnames
    rw [hnameToId]
    exact r.1.readTypes_again hprefix namespaces
  rw [readTypes, Prog.ends_bind, Prog.ends_zoom]
  refine (Prog.Ends.and (leaves_browseHierarchy hclient fuel r.1.nameToId r.2) htrace).mono
    fun out s' h => ?_
  obtain ⟨⟨-, hreturns⟩, hfiled⟩ := h
  cases out with
  | throw e => exact ⟨False.elim, fun _ H hH => hagain s' _ H (hfiled H hH)⟩
  | stuck w => exact ⟨False.elim, fun _ H hH => hagain s' _ H (hfiled H hH)⟩
  | ok browsed =>
    obtain ⟨H, hH, rfl⟩ := hreturns browsed rfl
    exact ⟨fun _ => ⟨H, hH, rfl⟩, fun hnot => absurd trivial hnot⟩

/-- **Reading the types until an attempt returns** is reading them once. -/
theorem ends_readTypesLoop (hclient : client.BrowsesAs A mayFail) (fuel : ℕ)
    (namespaces : List String) : ∀ (attempts : List (ω → ω)) (r : OpcUaTypeReader × ω),
      (client.readTypesLoop fuel namespaces attempts).Ends r fun out r' => out.Returns →
        ∃ H : TypeHierarchy, H.SeenBy A mayFail ∧ r'.1 = r.1.readTypes H namespaces
  | [], _ => False.elim
  | meanwhile :: attempts, r => by
    rw [readTypesLoop, Prog.ends_bind, Prog.ends_modify, Outcome.follow_ok, Prog.ends_catching]
    refine (ends_readTypes hclient fuel namespaces _).mono fun out r₁ h => ?_
    obtain ⟨hreturns, hagain⟩ := h
    cases out with
    | ok u => exact hreturns
    | stuck w => exact False.elim
    | throw e =>
      rw [Outcome.rescue_throw]
      split_ifs
      · refine (ends_readTypesLoop hclient fuel namespaces attempts r₁).mono
          fun out r₂ hrest hreturns => ?_
        obtain ⟨H, hH, hr⟩ := hrest hreturns
        exact ⟨H, hH, hr.trans (hagain id H hH)⟩
      · exact False.elim

/-- **The types are complete.** When `main` has read the types, over a client whose calls may have
failed at any time, the type reader is what one undisturbed reading of the server's types makes of
it, where only modelling rules may be missing. It has an entry for a type if and only if the type
can be reached on the server and its namespace is available and configured. -/
theorem types_complete (hclient : client.BrowsesAs A mayFail) (fuel : ℕ)
    (namespaces expectedObjectTypeNamespaces : List String)
    (namespaceInformations : List NamespaceInformation) (attempts : List (ω → ω)) (w : ω) :
    let reader := OpcUaTypeReader.create expectedObjectTypeNamespaces namespaceInformations
    let r := (client.readTypesLoop fuel namespaces attempts).run (reader, w)
    r.1.Returns →
      (∃ H : TypeHierarchy, H.SeenBy A mayFail ∧ r.2.1 = reader.readTypes H namespaces) ∧
      ∀ x, x ∈ r.2.1.typeMap ↔ A.typeAnswers.IsTypeNode x ∧ x.uri ∈ namespaces ∧
        x.uri ∈ expectedObjectTypeNamespaces := by
  intro reader r hreturns
  obtain ⟨H, hH, hr⟩ : ∃ H : TypeHierarchy, H.SeenBy A mayFail ∧
      r.2.1 = reader.readTypes H namespaces :=
    ends_readTypesLoop hclient fuel namespaces attempts (reader, w) hreturns
  refine ⟨⟨H, hH, hr⟩, fun x => ?_⟩
  rw [hr, OpcUaTypeReader.mem_typeMap_readTypes, hH.mem_typesFound]

/-! ### A client that loses its connection -/

/-- A server with one object type, whose rule is mandatory. -/
def lossyAnswers : Answers where
  browse n ctx := .ok <|
    if ctx = .objectAndVariableWithTypes then
      if n = WellKnown.baseObjectType then
        [⟨.objectType, ⟨"urn:plant", "t"⟩, ⟨"", "i=45"⟩, ⟨"", ""⟩, ⟨"urn:plant", "PlantType"⟩⟩]
      else []
    else [⟨.object, ⟨"", "i=78"⟩, ⟨"", "i=37"⟩, ⟨"", "i=77"⟩, ⟨"", "Mandatory"⟩⟩]
  browseWithResultTypeFilter _ _ _ := .ok []
  translateBrowsePathToNodeId n _ := .ok n

/-- Its client loses the connection in the first attempt, and in the second one while it asks for
the rule. -/
def lossyClient : IDashboardDataClient ℕ where
  browse n ctx k :=
    (if k = 1 ∨ k = 4 then .error (.clientNotConnected "Need connected client.")
      else lossyAnswers.browse n ctx, k + 1)
  browseWithResultTypeFilter _ _ _ k := (.ok [], k)
  translateBrowsePathToNodeId n _ k := (.ok n, k)
  isSameOrSubtype a b _ k := (a.equals b, k)
  subscribe n _ k := (.ok (some ⟨0, 0, n⟩), k)
  unsubscribe _ _ k := k
  readeNodeValues ns k := (.ok (ns.map fun _ => .null), k)
  subscribe_nodeId n _ _ h _ heq := by
    cases heq
    rfl

theorem browsesAs_lossyClient : lossyClient.BrowsesAs lossyAnswers True := by
  intro n ctx k
  by_cases hk : k = 1 ∨ k = 4
  · exact .inr ⟨trivial, _, if_pos hk⟩
  · exact .inl (if_neg hk)

/-- After the second attempt the type is there. -/
theorem types_complete_lossyClient :
    let reader := OpcUaTypeReader.create ["urn:plant"] []
    let r := (lossyClient.readTypesLoop 3 ["", "urn:plant"] [id, id]).run (reader, 0)
    (∃ H : TypeHierarchy, H.SeenBy lossyAnswers True ∧
      r.2.1 = reader.readTypes H ["", "urn:plant"]) ∧
    ∀ x, x ∈ r.2.1.typeMap ↔ lossyAnswers.typeAnswers.IsTypeNode x ∧ x.uri ∈ ["", "urn:plant"] ∧
      x.uri ∈ ["urn:plant"] :=
  types_complete browsesAs_lossyClient 3 ["", "urn:plant"] ["urn:plant"] [] [id, id] 0
    (by decide +kernel)

end IDashboardDataClient

end UmatiDashboard
