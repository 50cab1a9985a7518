import UmatiDashboard.OpcUaClient.ServiceFailures

/-!
# Browsing in pages

A server may deliver the references of a node in pages: a Browse response has the first page, and
a continuation point if there are further ones, which BrowseNext would ask for. The client never
asks, so what it returns is the conversion of the first page.
-/

namespace UmatiDashboard

/-- A node whose references a server delivers in pages of its own choice. -/
structure PagedNode (κ : Type) where
  firstPage : List (UaReferenceDescription κ)
  furtherPages : List (List (UaReferenceDescription κ))
  serviceResult : UInt32
  statusCode : UInt32
  continuationPoint : List UInt8
  /-- the server finds the node -/
  good : isBadStatus statusCode = false
  /-- there is a continuation point while references remain -/
  continued : continuationPoint = [] ↔ furtherPages = []

namespace PagedNode

variable {κ : Type} (node : PagedNode κ)

/-- The references on the pages after the first one. -/
def remaining : List (UaReferenceDescription κ) := node.furtherPages.flatten

/-- All references of the node, in the order of the server. -/
def references : List (UaReferenceDescription κ) := node.firstPage ++ node.remaining

/-- The answer to a Browse of the node. -/
def response : UaBrowseResponse κ where
  serviceResult := node.serviceResult
  results := [{ statusCode := node.statusCode
                continuationPoint := node.continuationPoint
                references := node.firstPage }]

@[simp] theorem references_response : node.response.references = node.firstPage := by
  simp [response, UaBrowseResponse.references]

end PagedNode

namespace ServiceClient

variable {χ κ : Type} {statusName : UInt32 → String} {c s : ServiceClient χ κ}

/-! ### Browsing the first page -/

section Loop

variable {filter : UaReferenceDescription κ → ServiceM χ κ Bool}
  {convert : UaReferenceDescription κ → Except Exception BrowseResult}

/-- Browsing a node of a connected client comes down to the loop over the first page. -/
theorem run_browseWithContextAndFilter_paged (hc : c.isConnected = true) (node : PagedNode κ) :
    (browseWithContextAndFilter statusName (.ok ()) true node.response filter convert).run c =
      (referenceDescriptionsToBrowseResults filter convert node.firstPage).run c := by
  have hfirst : throwIfFirstBad statusName node.response.results =
      (pure () : ServiceM χ κ Unit) := by
    simp [PagedNode.response, throwIfFirstBad, throwIfBad, node.good]
  have hlift : (lift (.ok ()) : ServiceM χ κ Unit).run c = (.ok (), c) := rfl
  have hverify : (verifyConnected true).run c = (.ok (), c) := by simp [run_verifyConnected, hc]
  have hpure : (pure () : ServiceM χ κ Unit).run c = (.ok (), c) := rfl
  rw [browseWithContextAndFilter, bind_handleContinuationPoint, hfirst,
    PagedNode.references_response]
  simp only [Prog.run_bind, hlift, hverify, hpure]

end Loop

/-! ### What the further pages contribute -/

section Collect

variable {ends : UaReferenceDescription κ → Outcome Exception (List BrowseResult)}
  {xs ys : List (UaReferenceDescription κ)}

theorem collect_append (xs ys : List (UaReferenceDescription κ)) :
    collect ends (xs ++ ys) = match collect ends xs with
      | .ok entries =>
        match collect ends ys with
        | .ok rest => .ok (entries ++ rest)
        | o => o
      | o => o := by
  induction xs with
  | nil =>
    rw [List.nil_append, collect]
    cases collect ends ys <;> rfl
  | cons ref xs ih =>
    rw [List.cons_append, collect, ih, collect]
    cases ends ref with
    | ok entry =>
      cases collect ends xs with
      | ok entries => cases collect ends ys <;> simp
      | throw e => rfl
      | stuck w => rfl
    | throw e => rfl
    | stuck w => rfl

/-- The loop returns if every reference does. -/
theorem returns_collect_iff : (collect ends xs).Returns ↔ ∀ ref ∈ xs, (ends ref).Returns := by
  induction xs with
  | nil => simp [collect]
  | cons ref xs ih =>
    rw [collect, List.forall_mem_cons, ← ih]
    cases ends ref with
    | ok entry => cases collect ends xs <;> simp
    | throw e => simp
    | stuck w => simp

/-- The loop returns nothing if every reference is dropped. -/
theorem collect_eq_nil_iff : collect ends xs = .ok [] ↔ ∀ ref ∈ xs, ends ref = .ok [] := by
  induction xs with
  | nil => simp [collect]
  | cons ref xs ih =>
    rw [collect, List.forall_mem_cons, ← ih]
    cases ends ref with
    | ok entry => cases collect ends xs <;> simp
    | throw e => simp
    | stuck w => simp

/-- The first references say it all if they do not return, or if the others are dropped. -/
theorem collect_append_eq_iff : collect ends xs = collect ends (xs ++ ys) ↔
    (∃ ref ∈ xs, ¬ (ends ref).Returns) ∨ ∀ ref ∈ ys, ends ref = .ok [] := by
  have hfirst : (∃ ref ∈ xs, ¬ (ends ref).Returns) ↔ ¬ (collect ends xs).Returns := by
    rw [returns_collect_iff]
    simp
  rw [hfirst, ← collect_eq_nil_iff, collect_append]
  cases collect ends xs with
  | ok entries => cases collect ends ys <;> simp
  | throw e => simp
  | stuck w => simp

end Collect

/-! ### Completeness -/

section Complete

variable {convert : UaReferenceDescription κ → Except Exception BrowseResult}

/-- Browse, which drops nothing. -/
private theorem complete_browse (hc : c.isConnected = true) (node : PagedNode κ) :
    ((browse statusName (.ok ()) true node.response convert).run c).1 =
        .ofExcept (node.references.mapM convert) ↔
      (∃ ref ∈ node.firstPage, ∃ e, convert ref = .error e) ∨ node.remaining = [] := by
  have hreturns : ∀ ref : UaReferenceDescription κ,
      ¬ (convertedEnd convert ref).Returns ↔ ∃ e, convert ref = .error e := by
    intro ref
    rw [convertedEnd]
    cases convert ref <;> simp
  have hkept : ∀ ref : UaReferenceDescription κ, convertedEnd convert ref ≠ .ok [] := by
    intro ref
    rw [convertedEnd]
    cases convert ref <;> simp
  rw [browse, run_browseWithContextAndFilter_paged hc node,
    run_referenceDescriptionsToBrowseResults (fun _ => True)
      (fun ref s _ => ⟨unfiltered_end ref s, fun _ => trivial⟩) node.firstPage trivial,
    ← collect_convertedEnd, PagedNode.references, collect_append_eq_iff]
  simp only [hreturns]
  refine or_congr_right ⟨fun hdropped => ?_, fun hnil => by simp [hnil]⟩
  exact List.eq_nil_iff_forall_not_mem.mpr fun ref href => hkept ref (hdropped ref href)

/-- BrowseWithResultTypeFilter, which drops the references of another type. -/
private theorem complete_browseWithResultTypeFilter [DecidableEq κ] (hc : c.isConnected = true)
    (node : PagedNode κ) (answers : κ → UaTypeAnswers κ) (expectedType : Option κ)
    {nodeClass : Option NodeClass} (hclass : isTypeClass nodeClass = true) :
    (∃ enough, ∀ fuel ≥ enough,
      ((browseWithResultTypeFilter statusName answers fuel (.ok expectedType) true nodeClass
        (.ok ()) true node.response convert).run c).1 =
          collect (filteredEnd statusName answers c expectedType convert fuel) node.references) ↔
      (∃ ref ∈ node.firstPage, ¬ c.Passes answers expectedType convert ref) ∨
        ∀ ref ∈ node.remaining, c.Misses answers expectedType ref.typeDefinition := by
  have hrun : ∀ fuel, ((browseWithResultTypeFilter statusName answers fuel (.ok expectedType) true
      nodeClass (.ok ()) true node.response convert).run c).1 =
      collect (filteredEnd statusName answers c expectedType convert fuel) node.firstPage := by
    intro fuel
    have hverify : (verifyConnected true).run c = (.ok (), c) := by
      simp [run_verifyConnected, hc]
    have htype : (throwIfNoType nodeClass).run c = (.ok (), c) := by
      rw [throwIfNoType, if_pos hclass]
      rfl
    simp only [browseWithResultTypeFilter, Prog.run_bind, run_lift_ok, hverify, htype]
    rw [run_browseWithContextAndFilter_paged hc node]
    exact run_referenceDescriptionsToBrowseResults (Agrees statusName answers c)
      (fun ref s hs => hs.filtered_end) node.firstPage ⟨rfl, fun _ => rfl⟩
  have hends := (Filter.eventually_all_finite (List.finite_toSet node.references)).mpr
    fun ref _ => (eventually_filteredEnd statusName answers c expectedType convert ref).and
        (eventually_climbEnd statusName c answers expectedType ref.typeDefinition).2.1
  simp only [hrun, PagedNode.references, collect_append_eq_iff]
  rw [← Filter.eventually_atTop]
  refine (Filter.eventually_congr (hends.mono fun fuel hfuel => ?_)).trans Filter.eventually_const
  refine or_congr (exists_congr fun ref => and_congr_right fun href => ?_)
    (forall₂_congr fun ref href => ?_)
  · exact not_congr (hfuel ref (List.mem_append_left _ href)).1.1
  · exact filteredEnd_eq_nil_iff.trans (hfuel ref (List.mem_append_right _ href)).2

variable (statusName convert) in
/-- **Browsing in pages.** Browse and BrowseWithResultTypeFilter end as they would if all references
were on one page exactly when a reference of the first page ends them, or no reference that passes
the filter, or that the filter cannot tell, is left for a further page. -/
theorem complete_iff_onFirstPage [DecidableEq κ] (hc : c.isConnected = true)
    (node : PagedNode κ) (answers : κ → UaTypeAnswers κ) (expectedType : Option κ)
    (nodeClass : Option NodeClass) (hclass : isTypeClass nodeClass = true) :
    (((browse statusName (.ok ()) true node.response convert).run c).1 =
        .ofExcept (node.references.mapM convert) ↔
      (∃ ref ∈ node.firstPage, ∃ e, convert ref = .error e) ∨ node.remaining = []) ∧
    ((∃ enough, ∀ fuel ≥ enough,
      ((browseWithResultTypeFilter statusName answers fuel (.ok expectedType) true nodeClass
        (.ok ()) true node.response convert).run c).1 =
          collect (filteredEnd statusName answers c expectedType convert fuel) node.references) ↔
      (∃ ref ∈ node.firstPage, ¬ c.Passes answers expectedType convert ref) ∨
        ∀ ref ∈ node.remaining, c.Misses answers expectedType ref.typeDefinition) :=
  ⟨complete_browse hc node,
    complete_browseWithResultTypeFilter hc node answers expectedType hclass⟩

end Complete

/-! ### A folder with two machines -/

/-- The reference to a machine. -/
def machineReference (n : Nat) : UaReferenceDescription Nat where
  referenceTypeId := some 35
  nodeId := some n
  browseName := (1, "Machine")
  nodeClass := .object
  typeDefinition := some 58
  nodeIdOnHeap := false

/-- What a reference is converted to. -/
def machineEntry (ref : UaReferenceDescription Nat) : Except Exception BrowseResult :=
  .ok { nodeClass := ref.nodeClass
        nodeId := ⟨"m", "i=" ++ toString (ref.nodeId.getD 0)⟩
        typeDefinition := ⟨"", "i=58"⟩
        referenceTypeId := ⟨"", "i=35"⟩
        browseName := ⟨"m", ref.browseName.2⟩ }

/-- A folder of two machines, delivered in pages of one reference. -/
def pagedFolder : PagedNode Nat where
  firstPage := [machineReference 1]
  furtherPages := [[machineReference 2]]
  serviceResult := 0
  statusCode := 0
  continuationPoint := [1]
  good := by decide
  continued := by simp

/-- The second machine is not returned. -/
theorem not_complete_pagedFolder :
    ((browse (fun _ => "Good") (.ok ()) true pagedFolder.response machineEntry).run
      connectedClient).1 ≠ .ofExcept (pagedFolder.references.mapM machineEntry) := by
  rw [Ne, complete_browse rfl]
  rintro (⟨ref, -, e, he⟩ | hnil)
  · cases he
  · cases hnil

/-- The same folder on one page. -/
def unpagedFolder : PagedNode Nat where
  firstPage := [machineReference 1, machineReference 2]
  furtherPages := []
  serviceResult := 0
  statusCode := 0
  continuationPoint := []
  good := by decide
  continued := by simp

/-- On one page both machines are returned, also by their type. -/
theorem complete_unpagedFolder :
    ((browse (fun _ => "Good") (.ok ()) true unpagedFolder.response machineEntry).run
      connectedClient).1 = .ofExcept (unpagedFolder.references.mapM machineEntry) ∧
    ∃ enough, ∀ fuel ≥ enough,
      ((browseWithResultTypeFilter (fun _ => "Good") (fun _ => ⟨true, none, ⟨0, []⟩⟩) fuel
        (.ok (some 58)) true (some .objectType) (.ok ()) true unpagedFolder.response
          machineEntry).run connectedClient).1 =
        collect (filteredEnd (fun _ => "Good") (fun _ => ⟨true, none, ⟨0, []⟩⟩) connectedClient
          (some 58) machineEntry fuel) unpagedFolder.references := by
  have hcomplete := complete_iff_onFirstPage (fun _ => "Good") machineEntry (c := connectedClient)
    rfl unpagedFolder (fun _ => ⟨true, none, ⟨0, []⟩⟩) (some 58) (some .objectType) rfl
  have hnone : unpagedFolder.remaining = [] := rfl
  exact ⟨hcomplete.1.mpr (.inr hnone), hcomplete.2.mpr (.inr (by simp [hnone]))⟩

end ServiceClient

end UmatiDashboard
