import Mathlib

/-!
# Output that escapes letters and drops separators

A text is written in spans.  A span is copied, or is a letter written as an
escape, or loses a separator in front; the output is the text only if every span
is copied.
-/

namespace LlmRuntime.Escaping

universe u

variable {α : Type u}

inductive Span (α : Type u) where
  | copied (w : List α)
  | escaped (b : α)
  | stripped (w : List α)

/-- How letters are escaped: by the mark and then the code of the letter. -/
structure Escape (α : Type u) where
  separator : α
  mark : α
  code : α → List α
  mark_ne : mark ≠ separator
  code_ne_nil : ∀ b, code b ≠ []
  separator_not_mem : ∀ b, separator ∉ code b

variable (e : Escape α)

def Escape.meaning : Span α → List α
  | .copied w => w
  | .escaped b => [b]
  | .stripped w => e.separator :: w

def Escape.output : Span α → List α
  | .copied w => w
  | .escaped b => e.mark :: e.code b
  | .stripped w => w

theorem exists_append_of_length_le {short long front back : List α}
    (same : short ++ front = long ++ back) (notLonger : short.length ≤ long.length) :
    ∃ rest, long = short ++ rest ∧ front = rest ++ back := by
  rcases List.append_eq_append_iff.mp same with ⟨rest, isLong, isFront⟩ | ⟨rest, isShort, isBack⟩
  · exact ⟨rest, isLong, isFront⟩
  · have isEmpty : rest = [] := by
      rw [isShort, List.length_append] at notLonger
      exact List.length_eq_zero_iff.mp (by omega)
    rw [isEmpty, List.append_nil] at isShort
    rw [isEmpty, List.nil_append] at isBack
    exact ⟨[], by rw [isShort, List.append_nil], isBack.symm⟩

theorem exists_perm_queue {queue w front back : List α} (same : w ++ front = queue ++ (w ++ back)) :
    ∃ rest, rest.Perm queue ∧ front = rest ++ back := by
  rw [← List.append_assoc] at same
  obtain ⟨rest, isLong, isFront⟩ := exists_append_of_length_le same
    (by rw [List.length_append]; omega)
  refine ⟨rest, ?_, isFront⟩
  have isPerm : (w ++ rest).Perm (w ++ queue) := by
    rw [← isLong]
    exact List.perm_append_comm
  exact (List.perm_append_left_iff w).mp isPerm

theorem Escape.output_ne_of_behind (spans : List (Span α)) {queue : List α}
    (notEmpty : queue ≠ []) (separators : ∀ c ∈ queue, c = e.separator) :
    spans.flatMap e.output ≠ queue ++ spans.flatMap e.meaning := by
  induction spans generalizing queue with
  | nil => simpa using notEmpty
  | cons span spans ih =>
    rw [List.flatMap_cons, List.flatMap_cons]
    intro same
    cases span with
    | copied w =>
      rw [output, meaning] at same
      obtain ⟨rest, isPerm, isRest⟩ := exists_perm_queue same
      refine ih ?_ ?_ isRest
      · rintro rfl
        exact notEmpty isPerm.nil_eq.symm
      · intro c isIn
        exact separators c (isPerm.mem_iff.mp isIn)
    | escaped b =>
      cases queue with
      | nil => exact notEmpty rfl
      | cons c queue =>
        rw [output, List.cons_append, List.cons_append] at same
        have isMark := (List.cons.inj same).1
        rw [separators c List.mem_cons_self] at isMark
        exact e.mark_ne isMark
    | stripped w =>
      rw [output, meaning, List.cons_append, ← List.singleton_append, ← List.append_assoc] at same
      obtain ⟨rest, isPerm, isRest⟩ := exists_perm_queue same
      refine ih ?_ ?_ isRest
      · rintro rfl
        exact absurd isPerm.nil_eq (by simp)
      · intro c isIn
        have inQueue := isPerm.mem_iff.mp isIn
        rcases List.mem_append.mp inQueue with isOld | isNew
        · exact separators c isOld
        · exact List.mem_singleton.mp isNew

theorem Escape.output_ne_of_ahead (spans : List (Span α)) {queue : List α}
    (notEmpty : queue ≠ []) (noSeparator : e.separator ∉ queue) :
    queue ++ spans.flatMap e.output ≠ spans.flatMap e.meaning := by
  induction spans generalizing queue with
  | nil => simpa using notEmpty
  | cons span spans ih =>
    rw [List.flatMap_cons, List.flatMap_cons]
    intro same
    cases span with
    | copied w =>
      rw [output, meaning] at same
      obtain ⟨rest, isPerm, isRest⟩ := exists_perm_queue same.symm
      refine ih ?_ ?_ isRest.symm
      · rintro rfl
        exact notEmpty isPerm.nil_eq.symm
      · intro isIn
        exact noSeparator (isPerm.mem_iff.mp isIn)
    | escaped b =>
      cases queue with
      | nil => exact notEmpty rfl
      | cons c queue =>
        rw [meaning, output, List.cons_append, List.singleton_append] at same
        have isRest := (List.cons.inj same).2
        rw [← List.append_assoc] at isRest
        refine ih ?_ ?_ isRest
        · simp
        · intro isIn
          rcases List.mem_append.mp isIn with isOld | isNew
          · exact noSeparator (List.mem_cons_of_mem c isOld)
          · rcases List.mem_cons.mp isNew with isMark | isCode
            · exact e.mark_ne isMark.symm
            · exact e.separator_not_mem b isCode
    | stripped w =>
      cases queue with
      | nil => exact notEmpty rfl
      | cons c queue =>
        rw [meaning, List.cons_append, List.cons_append] at same
        rw [(List.cons.inj same).1] at noSeparator
        exact noSeparator List.mem_cons_self

/-- The output is the text exactly if every span is copied. -/
theorem Escape.output_eq_meaning_iff (spans : List (Span α)) :
    spans.flatMap e.output = spans.flatMap e.meaning ↔ ∀ span ∈ spans, ∃ w, span = .copied w := by
  induction spans with
  | nil => simp
  | cons span spans ih =>
    rw [List.flatMap_cons, List.flatMap_cons, List.forall_mem_cons]
    cases span with
    | copied w =>
      rw [output, meaning, List.append_cancel_left_eq, ih]
      exact (and_iff_right ⟨w, rfl⟩).symm
    | escaped b =>
      refine iff_of_false ?_ (by simp)
      rw [output, meaning, List.cons_append, List.singleton_append]
      intro same
      exact e.output_ne_of_ahead spans (e.code_ne_nil b)
        (e.separator_not_mem b) (List.cons.inj same).2
    | stripped w =>
      refine iff_of_false ?_ (by simp)
      rw [output, meaning, List.cons_append, ← List.singleton_append]
      intro same
      obtain ⟨rest, isPerm, isRest⟩ := exists_perm_queue same
      refine e.output_ne_of_behind spans ?_ ?_ isRest
      · rintro rfl
        exact absurd isPerm.nil_eq (by simp)
      · intro c isIn
        exact List.mem_singleton.mp (isPerm.mem_iff.mp isIn)

end LlmRuntime.Escaping
