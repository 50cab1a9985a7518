import UmatiDashboard.TypeReader.Conversions

/-!
# Flattening bloodlines, without pointers

What setting up the types does to the child lists, when every structure node simply has a list and
there are no entries and no pointers (`Flattening.run`). A declared child of a bloodline is
converted (`fill`), hands its children to the declaration of its name in the list of the type
(`hand`), and then takes its place there, or is appended (`declareIn`).

A type in no declared child's tree has the declarations of its own bloodline in its list
(`run_apply_of_unlisted`). Of those of one browse name, the first one stays whose rule no lower
declaration replaces, and else the last one (`named_run`).
-/

namespace UmatiDashboard

namespace StructureBiNode

/-- The children that a bloodline declares, from the root down. -/
def declarations (line : List StructureBiNode) : List StructureBiNode :=
  line.reverse.flatMap fun ancestor =>
    ancestor.specifiedBiChildNodes.filter fun child => !child.isType

theorem mem_declarations {line : List StructureBiNode} {c : StructureBiNode} :
    c ∈ declarations line ↔ ∃ a ∈ line, c ∈ a.specifiedBiChildNodes ∧ c.isType = false := by
  simp [declarations]

/-- The structure nodes of the children that a bloodline declares. -/
def declaredRefs (line : List StructureBiNode) : List NodeRef :=
  (declarations line).map structureNode

theorem declarations_cons (b : StructureBiNode) (up : List StructureBiNode) :
    declarations (b :: up) =
      declarations up ++ b.specifiedBiChildNodes.filter fun c => !c.isType := by
  simp [declarations]

/-- The declared children of the types that are set up, each with the structure node of the type. -/
def declared (lines : List (List StructureBiNode)) : List (NodeRef × StructureBiNode) :=
  lines.flatMap fun line => (declarations line).map fun c => (headRef line, c)

end StructureBiNode

open StructureBiNode

/-- The child list of every structure node. -/
abbrev ChildLists := NodeRef → List NodeRef

namespace Flattening

/-- A tree is converted: every node of it gets its children. -/
def fill (c : StructureBiNode) (L : ChildLists) : ChildLists :=
  fun l => L l ++ appendedBy c.subtrees l

variable (h : TypeHeap)

/-- Those nodes whose names are missing in the list, one of each name. -/
def missing (ns : List NodeRef) : List NodeRef → List NodeRef
  | [] => []
  | m :: ms =>
    match h.findNode ns m with
    | some _ => missing ns ms
    | none => m :: missing (ns ++ [m]) ms

/-- A node is handed the children of a redeclaration that it does not have. -/
def hand (found c : NodeRef) (L : ChildLists) : ChildLists :=
  Function.update L found (L found ++ missing h (L found) (L c))

/-- A declaration enters the list of a type. -/
def declareIn (ns : List NodeRef) (c : NodeRef) : List NodeRef :=
  match h.findNode ns c with
  | some found => if TypeHeap.isReplaceable (h.rule found) then ns.erase found ++ [c] else ns
  | none => ns ++ [c]

/-- What a declaration with filled lists does to the one of its name in the list at `l`. -/
def handFound (l c : NodeRef) (L : ChildLists) : ChildLists :=
  match h.findNode (L l) c with
  | some found => hand h found c L
  | none => L

/-- One declared child of a bloodline. -/
def declare (l : NodeRef) (L : ChildLists) (c : StructureBiNode) : ChildLists :=
  let handed := handFound h l c.structureNode (fill c L)
  Function.update handed l (declareIn h (handed l) c.structureNode)

/-- Setting up the type at the lower end of a bloodline. -/
def setUp (L : ChildLists) (line : List StructureBiNode) : ChildLists :=
  (declarations line).foldl (declare h (headRef line)) L

/-- Setting up types one after the other. -/
def run (lines : List (List StructureBiNode)) : ChildLists :=
  lines.foldl (setUp h) fun _ => []

theorem run_concat (lines : List (List StructureBiNode)) (line : List StructureBiNode) :
    run h (lines ++ [line]) = setUp h (run h lines) line := by
  rw [run, List.foldl_append]
  rfl

theorem run_eq_foldl (lines : List (List StructureBiNode)) :
    run h lines = (declared lines).foldl (fun L p => declare h p.1 L p.2) fun _ => [] := by
  rw [declared, List.foldl_flatMap, run]
  simp only [List.foldl_map]
  rfl

/-- The declared children are converted in turn. -/
theorem map_snd_declared (lines : List (List StructureBiNode)) :
    (declared lines).map Prod.snd = lines.flatMap declarations := by
  simp [declared, List.map_flatMap, Function.comp_def]

/-- **An invariant of flattening**: what one declared child keeps. -/
theorem run_invariant {lines : List (List StructureBiNode)}
    {I : List (NodeRef × StructureBiNode) → ChildLists → Prop} (hstart : I [] fun _ => [])
    (hstep : ∀ line ∈ lines, ∀ c ∈ declarations line, ∀ done L, I done L →
      I (done ++ [(headRef line, c)]) (declare h (headRef line) L c)) :
    I (declared lines) (run h lines) := by
  have hfold : ∀ (ps done : List (NodeRef × StructureBiNode)) (L : ChildLists),
      (∀ p ∈ ps, p ∈ declared lines) → I done L →
      I (done ++ ps) (ps.foldl (fun L p => declare h p.1 L p.2) L) := by
    intro ps
    induction ps with
    | nil =>
      intro done L _ hI
      rwa [List.append_nil]
    | cons p ps ih =>
      intro done L hps hI
      obtain ⟨line, hline, hp⟩ := List.mem_flatMap.mp (hps p List.mem_cons_self)
      obtain ⟨c, hc, rfl⟩ := List.mem_map.mp hp
      rw [List.append_cons]
      exact ih _ _ (fun q hq => hps q (List.mem_cons_of_mem _ hq)) (hstep line hline c hc done L hI)
  rw [run_eq_foldl]
  exact hfold (declared lines) [] _ (fun _ hp => hp) hstart

/-! ### What the lists hold -/

variable {h}

theorem mem_of_mem_missing {m : NodeRef} {ns ms : List NodeRef} (hm : m ∈ missing h ns ms) :
    m ∈ ms := by
  induction ms generalizing ns with
  | nil => exact hm
  | cons m' ms ih =>
    rw [missing] at hm
    split at hm
    · exact List.mem_cons_of_mem _ (ih hm)
    · rcases List.mem_cons.mp hm with rfl | hm
      · exact List.mem_cons_self
      · exact List.mem_cons_of_mem _ (ih hm)

theorem mem_of_mem_declareIn {m c : NodeRef} {ns : List NodeRef} (hm : m ∈ declareIn h ns c) :
    m ∈ ns ∨ m = c := by
  rw [declareIn] at hm
  split at hm
  · split_ifs at hm
    · rcases List.mem_append.mp hm with hm | hm
      · exact Or.inl (List.mem_of_mem_erase hm)
      · exact Or.inr (List.mem_singleton.mp hm)
    · exact Or.inl hm
  · rcases List.mem_append.mp hm with hm | hm
    · exact Or.inl hm
    · exact Or.inr (List.mem_singleton.mp hm)

theorem fill_of_not_mem {c : StructureBiNode} {L : ChildLists} {l : NodeRef} (hl : l ∉ c.refs) :
    fill c L l = L l := by
  rw [fill, appendedBy_of_not_mem (by rwa [map_structureNode_subtrees]), List.append_nil]

theorem mem_of_mem_fill {c : StructureBiNode} {L : ChildLists} {l m : NodeRef}
    (hm : m ∈ fill c L l) : m ∈ L l ∨ m ∈ c.refs := by
  refine (List.mem_append.mp hm).imp_right fun hm => ?_
  rw [refs_eq_cons]
  exact List.mem_cons_of_mem _ (mem_refsAll_of_mem_appendedBy hm)

/-- The node that is found is listed. -/
theorem findNode_mem {ns : List NodeRef} {c found : NodeRef}
    (hfound : h.findNode ns c = some found) : found ∈ ns :=
  List.mem_of_find?_eq_some hfound

/-- Other nodes than the one found keep their lists. -/
theorem handFound_of_ne {l c r : NodeRef} {L : ChildLists}
    (hr : ∀ found, h.findNode (L l) c = some found → r ≠ found) : handFound h l c L r = L r := by
  cases hfind : h.findNode (L l) c with
  | none => simp [handFound, hfind]
  | some found => simp [handFound, hfind, hand, Function.update_of_ne (hr found hfind)]

theorem mem_of_mem_handFound {l c r m : NodeRef} {L : ChildLists}
    (hm : m ∈ handFound h l c L r) : m ∈ L r ∨ m ∈ L c := by
  cases hfind : h.findNode (L l) c with
  | none =>
    simp only [handFound, hfind] at hm
    exact Or.inl hm
  | some found =>
    simp only [handFound, hfind] at hm
    by_cases hr : r = found
    · subst hr
      rw [hand, Function.update_self] at hm
      exact (List.mem_append.mp hm).imp_right mem_of_mem_missing
    · rw [hand, Function.update_of_ne hr] at hm
      exact Or.inl hm

/-- A declared child brings the nodes of its tree into the lists. -/
theorem mem_of_mem_declare {l r m : NodeRef} {L : ChildLists} {c : StructureBiNode}
    (hm : m ∈ declare h l L c r) : (∃ r', m ∈ L r') ∨ m ∈ c.refs := by
  have hhanded : ∀ r, m ∈ handFound h l c.structureNode (fill c L) r →
      (∃ r', m ∈ L r') ∨ m ∈ c.refs := by
    intro r hm
    rcases mem_of_mem_handFound hm with hm | hm
    · exact (mem_of_mem_fill hm).imp_left fun hm => ⟨r, hm⟩
    · exact (mem_of_mem_fill hm).imp_left fun hm => ⟨_, hm⟩
  rw [declare] at hm
  by_cases hr : r = l
  · subst hr
    rw [Function.update_self] at hm
    rcases mem_of_mem_declareIn hm with hm | rfl
    · exact hhanded r hm
    · exact Or.inr (structureNode_mem_refs c)
  · rw [Function.update_of_ne hr] at hm
    exact hhanded r hm

/-- What the lists hold was declared. -/
theorem mem_of_mem_run {lines : List (List StructureBiNode)} {r m : NodeRef}
    (hm : m ∈ run h lines r) : ∃ line ∈ lines, ∃ c ∈ declarations line, m ∈ c.refs := by
  refine run_invariant h (I := fun _ L => ∀ r m, m ∈ L r →
    ∃ line ∈ lines, ∃ c ∈ declarations line, m ∈ c.refs)
    (fun _ _ hm => absurd hm List.not_mem_nil)
    (fun line hline c hc _ L hL r m hm => ?_) r m hm
  rcases mem_of_mem_declare hm with ⟨r', hm⟩ | hm
  · exact hL r' m hm
  · exact ⟨line, hline, c, hc, hm⟩

/-! ### Lists that only declarations enter -/

/-- A node that stands in no list and is not converted. -/
theorem declare_of_unlisted {l l' : NodeRef} {L : ChildLists} {c : StructureBiNode}
    (hc : l ∉ c.refs) (hL : ∀ r, l ∉ L r) :
    declare h l' L c l = if l = l' then declareIn h (L l) c.structureNode else L l := by
  have hhanded : handFound h l' c.structureNode (fill c L) l = L l := by
    rw [handFound_of_ne, fill_of_not_mem hc]
    rintro found hfound rfl
    exact (mem_of_mem_fill (findNode_mem hfound)).elim (hL l') hc
  rw [declare]
  split_ifs with hl
  · subst hl
    rw [Function.update_self, hhanded]
  · rw [Function.update_of_ne hl, hhanded]

theorem map_declared_filter (lines : List (List StructureBiNode)) (l : NodeRef) :
    (((declared lines).filter fun p => p.1 == l).map fun p => p.2.structureNode) =
      (lines.filter fun line => headRef line == l).flatMap declaredRefs := by
  induction lines with
  | nil => rfl
  | cons line lines ih =>
    rw [declared, List.flatMap_cons, List.filter_append, List.map_append, ← declared, ih,
      List.filter_cons]
    by_cases hl : headRef line = l
    · simp [hl, declaredRefs, List.filter_map, Function.comp_def]
    · simp [hl, List.filter_map, Function.comp_def]

/-- **The list of a type** that is in no declared child's tree: the declarations of its own
bloodline enter it, as often as it is set up. -/
theorem run_apply_of_unlisted {lines : List (List StructureBiNode)} {l : NodeRef}
    (hlines : ∀ line ∈ lines, ∀ c ∈ declarations line, l ∉ c.refs) :
    run h lines l =
      ((lines.filter fun line => headRef line == l).flatMap declaredRefs).foldl
        (declareIn h) [] := by
  have hrun : (∀ r, l ∉ run h lines r) ∧ run h lines l =
      (((declared lines).filter fun p => p.1 == l).map fun p => p.2.structureNode).foldl
        (declareIn h) [] := by
    refine run_invariant h (I := fun done L => (∀ r, l ∉ L r) ∧
      L l = ((done.filter fun p => p.1 == l).map fun p => p.2.structureNode).foldl (declareIn h) [])
      ⟨fun _ => List.not_mem_nil, rfl⟩ fun line hline c hc done L hL => ⟨fun r hr => ?_, ?_⟩
    · rcases mem_of_mem_declare hr with ⟨r', hr⟩ | hr
      · exact hL.1 r' hr
      · exact hlines line hline c hc hr
    · rw [declare_of_unlisted (hlines line hline c hc) hL.1, List.filter_append, List.map_append,
        List.foldl_append, ← hL.2]
      by_cases hl : l = headRef line
      · simp [hl]
      · simp [hl, Ne.symm hl]
  rw [hrun.2, map_declared_filter]

variable (h)

/-! ### The declaration that stays -/

/-- Of the declarations of one name, from the root down: the first one that is not replaced, or
the last one. -/
def staying (ds : List NodeRef) : Option NodeRef :=
  (ds.find? fun n => !TypeHeap.isReplaceable (h.rule n)).or ds.getLast?

/-- A further declaration of the name, when `current` stands in the list. -/
def succeed (current : Option NodeRef) (c : NodeRef) : Option NodeRef :=
  match current with
  | none => some c
  | some found => if TypeHeap.isReplaceable (h.rule found) then some c else some found

theorem foldl_succeed_of_not_replaceable {found : NodeRef}
    (hfound : TypeHeap.isReplaceable (h.rule found) = false) (ds : List NodeRef) :
    ds.foldl (succeed h) (some found) = some found := by
  induction ds with
  | nil => rfl
  | cons d ds ih => simpa [succeed, hfound] using ih

/-- **The declarations succeed each other** until one is not replaced. -/
theorem foldl_succeed (ds : List NodeRef) {current : Option NodeRef}
    (hcurrent : ∀ n, current = some n → TypeHeap.isReplaceable (h.rule n) = true) :
    ds.foldl (succeed h) current = (staying h ds).or current := by
  induction ds generalizing current with
  | nil => simp [staying]
  | cons d ds ih =>
    have hstep : succeed h current d = some d := by
      cases hc : current with
      | none => rfl
      | some found => simp [succeed, hcurrent found hc]
    rw [List.foldl_cons, hstep]
    cases hd : TypeHeap.isReplaceable (h.rule d) with
    | false =>
      rw [foldl_succeed_of_not_replaceable h hd]
      simp [staying, hd]
    | true =>
      rw [ih fun n hn => by cases hn; exact hd]
      cases ds with
      | nil => simp [staying, hd]
      | cons d' ds =>
        obtain ⟨last, hlast⟩ : ∃ last, (d' :: ds).getLast? = some last :=
          ⟨_, List.getLast?_eq_some_getLast (List.cons_ne_nil d' ds)⟩
        simp [staying, hd, hlast]

/-- Setting up a type once more changes nothing about which declaration stays. -/
theorem foldl_succeed_staying (ds : List NodeRef) :
    ds.foldl (succeed h) (staying h ds) = staying h ds := by
  cases hstay : staying h ds with
  | none => rw [foldl_succeed h ds fun n hn => (by cases hn), hstay, Option.or_none]
  | some found =>
    cases hrule : TypeHeap.isReplaceable (h.rule found) with
    | false => exact foldl_succeed_of_not_replaceable h hrule ds
    | true =>
      rw [foldl_succeed h ds fun n hn => by cases hn; exact hrule, hstay, Option.some_or]

theorem mem_of_staying {ds : List NodeRef} {n : NodeRef} (hstay : staying h ds = some n) :
    n ∈ ds := by
  rw [staying, Option.or_eq_some_iff] at hstay
  rcases hstay with hfind | ⟨-, hlast⟩
  · exact List.mem_of_find?_eq_some hfind
  · exact List.mem_of_getLast? hlast

theorem exists_staying {ds : List NodeRef} {n : NodeRef} (hn : n ∈ ds) :
    ∃ m, staying h ds = some m := by
  cases hstay : staying h ds with
  | some m => exact ⟨m, rfl⟩
  | none =>
    rw [staying, Option.or_eq_none_iff, List.getLast?_eq_none_iff] at hstay
    rw [hstay.2] at hn
    exact absurd hn List.not_mem_nil

/-! ### The lists of the types -/

/-- The declarations of one name. -/
def named (b : QualifiedName) (ns : List NodeRef) : List NodeRef :=
  ns.filter fun n => h.browseName n == b

theorem mem_named {b : QualifiedName} {ns : List NodeRef} {n : NodeRef} :
    n ∈ named h b ns ↔ n ∈ ns ∧ h.browseName n = b := by
  simp [named]

theorem findNode_eq (ns : List NodeRef) (c : NodeRef) :
    h.findNode ns c = (named h (h.browseName c) ns).head? := by
  have hpred : (fun el => el == c || h.browseName el == h.browseName c) =
      fun el => h.browseName el == h.browseName c := by
    funext el
    by_cases hel : el = c
    · simp [hel]
    · simp [hel]
  rw [TypeHeap.findNode, hpred, named, List.head?_filter]

/-- **One declared child** succeeds the declaration of its name, and leaves the others alone. -/
theorem named_declareIn {ns : List NodeRef} {b : QualifiedName} {current : Option NodeRef}
    (hcurrent : named h b ns = current.toList) (c : NodeRef) :
    named h b (declareIn h ns c) =
      (if h.browseName c = b then succeed h current c else current).toList := by
  unfold declareIn
  rw [findNode_eq]
  by_cases hc : h.browseName c = b
  · rw [hc, hcurrent, if_pos rfl]
    cases current with
    | none =>
      simp only [named] at hcurrent ⊢
      simp [hcurrent, succeed, hc]
    | some found =>
      simp only [Option.toList_some, List.head?_cons, succeed]
      split_ifs
      · simp only [named] at hcurrent ⊢
        simp [← List.erase_filter, hcurrent, hc]
      · exact hcurrent
  · rw [if_neg hc, ← hcurrent]
    cases hfind : (named h (h.browseName c) ns).head? with
    | none => simp [named, hc]
    | some found =>
      have hname : h.browseName found = h.browseName c :=
        ((mem_named h).mp (List.mem_of_head? hfind)).2
      have hnot : found ∉ named h b ns := fun hmem =>
        hc (hname.symm.trans ((mem_named h).mp hmem).2)
      dsimp only
      split_ifs
      · rw [named] at hnot
        simp [named, ← List.erase_filter, hc, List.erase_of_not_mem hnot]
      · rfl

theorem named_foldl_declareIn {b : QualifiedName} (cs : List NodeRef) {ns : List NodeRef}
    {current : Option NodeRef} (hcurrent : named h b ns = current.toList) :
    named h b (cs.foldl (declareIn h) ns) =
      ((named h b cs).foldl (succeed h) current).toList := by
  induction cs generalizing ns current with
  | nil => exact hcurrent
  | cons c cs ih =>
    rw [List.foldl_cons, ih (named_declareIn h hcurrent c)]
    by_cases hc : h.browseName c = b
    · simp [named, hc]
    · simp [named, hc]

/-- Declaring the same once more changes nothing about which declaration stays. -/
theorem foldl_succeed_copies {ds : List NodeRef} : ∀ dss : List (List NodeRef),
    (∀ ds' ∈ dss, ds' = ds) → dss ≠ [] → dss.flatten.foldl (succeed h) none = staying h ds
  | [], _, hne => absurd rfl hne
  | ds' :: dss, hsame, _ => by
    obtain rfl := hsame ds' List.mem_cons_self
    rw [List.flatten_cons, List.foldl_append, foldl_succeed h ds' fun n hn => (by cases hn),
      Option.or_none]
    clear * - hsame
    induction dss with
    | nil => rfl
    | cons ds'' dss ih =>
      obtain rfl := hsame ds'' (by simp)
      rw [List.flatten_cons, List.foldl_append, foldl_succeed_staying]
      exact ih fun ds hds => hsame ds (by simp_all)

variable {h}

/-- **Which declaration stays** for a type that was set up, however often and in whatever order:
among those of one name in its bloodline, the first that is not replaced or else the last. -/
theorem named_run {lines : List (List StructureBiNode)} {line : List StructureBiNode}
    (hline : line ∈ lines)
    (hsame : ∀ line' ∈ lines, headRef line' = headRef line → line' = line)
    (hunlisted : ∀ line' ∈ lines, ∀ c ∈ declarations line', headRef line ∉ c.refs)
    (b : QualifiedName) :
    named h b (run h lines (headRef line)) =
      (staying h (named h b (declaredRefs line))).toList := by
  set copies := lines.filter fun line' => headRef line' == headRef line with hcopies
  have hmem : line ∈ copies := by simp [hcopies, hline]
  have hstart : named h b [] = (none : Option NodeRef).toList := rfl
  rw [run_apply_of_unlisted hunlisted, named_foldl_declareIn h _ hstart,
    ← foldl_succeed_copies h (copies.map fun line' => named h b (declaredRefs line')) ?_ ?_]
  · rw [named, List.filter_flatMap, ← List.flatMap_def]
    rfl
  · intro ds hds
    obtain ⟨line', hline', rfl⟩ := List.mem_map.mp hds
    rw [hcopies, List.mem_filter] at hline'
    rw [hsame line' hline'.1 (by simpa using hline'.2)]
  · rw [Ne, List.map_eq_nil_iff]
    exact List.ne_nil_of_mem hmem

/-- The names in the list of a type that was set up are those declared in its bloodline. -/
theorem exists_mem_run {lines : List (List StructureBiNode)} {line : List StructureBiNode}
    (hline : line ∈ lines)
    (hsame : ∀ line' ∈ lines, headRef line' = headRef line → line' = line)
    (hunlisted : ∀ line' ∈ lines, ∀ c ∈ declarations line', headRef line ∉ c.refs)
    (b : QualifiedName) :
    (∃ c ∈ run h lines (headRef line), h.browseName c = b) ↔
      ∃ c ∈ declaredRefs line, h.browseName c = b := by
  have hstay := named_run (h := h) hline hsame hunlisted b
  constructor
  · rintro ⟨c, hc, hname⟩
    have hmem : c ∈ named h b (run h lines (headRef line)) := (mem_named h).mpr ⟨hc, hname⟩
    rw [hstay, Option.mem_toList] at hmem
    exact ⟨c, (mem_named h).mp (mem_of_staying h hmem)⟩
  · rintro ⟨c, hc, hname⟩
    obtain ⟨m, hm⟩ := exists_staying h ((mem_named h).mpr ⟨hc, hname⟩)
    have hmem : m ∈ named h b (run h lines (headRef line)) := by
      rw [hstay, Option.mem_toList]
      exact hm
    exact ⟨m, (mem_named h).mp hmem⟩

end Flattening

end UmatiDashboard
