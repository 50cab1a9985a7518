import Mathlib.Data.List.Basic
import Mathlib.Data.List.Infix

/-!
# Logs with marks

A log of events is cut into segments by some of them, the marks: `since mark es` are the events
after the last mark. A statement about what happens between two marks is one about the segments
(`EachSegment`). If it passes to the parts of a segment, then the segment at the end of the log is
the only one to look at when the log grows (`EachSegment.concat`).
-/

namespace UmatiDashboard

namespace EventLog

variable {ε : Type} (mark : ε → Prop) [DecidablePred mark]

/-- The events after the last mark. -/
def since (es : List ε) : List ε :=
  es.foldl (fun seg e => if mark e then [] else seg ++ [e]) []

/-- Every part of the log without a mark satisfies `P`. -/
def EachSegment (P : List ε → Prop) (es : List ε) : Prop :=
  ∀ pre mid post, es = pre ++ (mid ++ post) → (∀ e ∈ mid, ¬ mark e) → P mid

/-- The property passes to the parts of a list. -/
def Hereditary (P : List ε → Prop) : Prop := ∀ es es', es' <:+: es → P es → P es'

variable {mark} {P : List ε → Prop} {es mid : List ε} {e : ε}

@[simp] theorem since_nil : since mark [] = [] := rfl

theorem since_concat (es : List ε) (e : ε) :
    since mark (es ++ [e]) = if mark e then [] else since mark es ++ [e] := by
  rw [since, List.foldl_append]
  rfl

theorem since_concat_of_mark (h : mark e) : since mark (es ++ [e]) = [] := by
  rw [since_concat, if_pos h]

theorem since_concat_of_not (h : ¬ mark e) : since mark (es ++ [e]) = since mark es ++ [e] := by
  rw [since_concat, if_neg h]

/-- Events that are no marks stay at the end. -/
theorem since_append (es : List ε) (h : ∀ e ∈ mid, ¬ mark e) :
    since mark (es ++ mid) = since mark es ++ mid := by
  induction mid using List.reverseRecOn with
  | nil => simp
  | append_singleton mid e ih =>
    have hmid : ∀ e' ∈ mid, ¬ mark e' := fun e' he' => h e' (List.mem_append_left _ he')
    have he : ¬ mark e := h e (by simp)
    rw [← List.append_assoc, since_concat_of_not he, ih hmid, List.append_assoc]

/-- A part at the end of the log that has no mark lies after the last one. -/
theorem suffix_since (pre : List ε) (h : ∀ e ∈ mid, ¬ mark e) :
    mid <:+ since mark (pre ++ mid) := by
  rw [since_append pre h]
  exact List.suffix_append _ _

omit [DecidablePred mark] in
theorem eachSegment_nil (h : P []) : EachSegment mark P [] := by
  intro pre mid post heq _
  have hnil := (List.append_eq_nil_iff.mp (List.append_eq_nil_iff.mp heq.symm).2).1
  rw [hnil]
  exact h

/-- **The segments of a log that grows.** -/
theorem EachSegment.concat (hP : Hereditary P) (h : EachSegment mark P es)
    (hlast : P (since mark (es ++ [e]))) : EachSegment mark P (es ++ [e]) := by
  intro pre mid post heq hmid
  rcases List.eq_nil_or_concat post with rfl | ⟨post', last, rfl⟩
  · have hsuffix : mid <:+ since mark (es ++ [e]) := by
      rw [heq, List.append_nil]
      exact suffix_since pre hmid
    exact hP _ _ hsuffix.isInfix hlast
  · refine h pre mid post' ?_ hmid
    have heq' : es ++ [e] = (pre ++ (mid ++ post')) ++ [last] := by
      rw [heq]
      simp
    exact (List.append_inj' heq' rfl).1

/-- Several events without a mark may be looked at together. -/
theorem EachSegment.append (hP : Hereditary P) (h : EachSegment mark P es)
    (hmid : ∀ e ∈ mid, ¬ mark e) (hlast : P (since mark es ++ mid)) :
    EachSegment mark P (es ++ mid) := by
  induction mid using List.reverseRecOn with
  | nil => simpa using h
  | append_singleton mid e ih =>
    have hmid' : ∀ e' ∈ mid, ¬ mark e' := fun e' he' => hmid e' (List.mem_append_left _ he')
    rw [← List.append_assoc] at hlast ⊢
    refine (ih hmid' (hP _ _ (List.prefix_append _ [e]).isInfix hlast)).concat hP ?_
    rw [since_concat_of_not (hmid e (by simp)), since_append es hmid']
    exact hlast

end EventLog

end UmatiDashboard
