import Mathlib.Data.List.TakeWhile
import AccumulatorMachine.Text.Blank

/-!
# Blanks around a text

A text with blanks on both sides. Trimming finds what stands between them: it takes the longest runs
of blanks from both ends, and what it leaves neither begins nor ends with one.
-/

namespace AccumulatorMachine.Text

/-- Some characters with blanks before and after them. -/
def Padded (cs body : List Char) : Prop :=
  ∃ before after, cs = before ++ body ++ after ∧ (∀ c ∈ before, isBlank c = true) ∧
    ∀ c ∈ after, isBlank c = true

theorem Padded.refl (cs : List Char) : Padded cs cs := ⟨[], [], by simp, by simp, by simp⟩

theorem padded_trimChars (cs : List Char) : Padded cs (trimChars cs) := by
  refine ⟨cs.takeWhile isBlank, ((cs.dropWhile isBlank).reverse.takeWhile isBlank).reverse, ?_,
    fun c hc => List.mem_takeWhile_imp hc, ?_⟩
  · rw [trimChars, List.append_assoc, ← List.reverse_append, List.takeWhile_append_dropWhile,
      List.reverse_reverse, List.takeWhile_append_dropWhile]
  · intro c hc
    exact List.mem_takeWhile_imp (List.mem_reverse.1 hc)

theorem dropWhile_isBlank_append {before cs : List Char} (hbefore : ∀ c ∈ before, isBlank c = true)
    (hcs : ∀ c ∈ cs.head?, isBlank c = false) : (before ++ cs).dropWhile isBlank = cs := by
  rw [List.dropWhile_append_of_pos hbefore]
  cases cs with
  | nil => rfl
  | cons c cs => simp [hcs c rfl]

theorem trimChars_eq_of_padded {cs body : List Char} (h : Padded cs body)
    (hbody : ∀ c ∈ body, isBlank c = false) : trimChars cs = body := by
  have hfirst : ∀ c ∈ body.head?, isBlank c = false :=
    fun c hc => hbody c (List.mem_of_mem_head? hc)
  have hlast : ∀ c ∈ body.getLast?, isBlank c = false :=
    fun c hc => hbody c (List.mem_of_mem_getLast? hc)
  obtain ⟨before, after, rfl, hbefore, hafter⟩ := h
  cases body with
  | nil =>
    have hall : ∀ c ∈ before ++ [] ++ after, isBlank c = true := by
      intro c hc
      rw [List.append_nil, List.mem_append] at hc
      exact hc.elim (hbefore c) (hafter c)
    rw [trimChars, List.dropWhile_eq_nil_iff.2 hall]
    rfl
  | cons c cs =>
    rw [trimChars, List.append_assoc, dropWhile_isBlank_append hbefore (by simpa using hfirst),
      List.reverse_append, dropWhile_isBlank_append, List.reverse_reverse]
    · simpa using hafter
    · rwa [List.head?_reverse]

/-- If no text of some kind has a blank, then one stands between blanks exactly if trimming leaves
one. -/
theorem exists_padded_iff {p : List Char → Prop} {cs : List Char}
    (hp : ∀ body, p body → ∀ c ∈ body, isBlank c = false) :
    (∃ body, Padded cs body ∧ p body) ↔ p (trimChars cs) := by
  constructor
  · rintro ⟨body, hpadded, hbody⟩
    rwa [trimChars_eq_of_padded hpadded (hp body hbody)]
  · exact fun h => ⟨_, padded_trimChars cs, h⟩

theorem trimChars_eq_nil_iff {cs : List Char} :
    trimChars cs = [] ↔ ∀ c ∈ cs, isBlank c = true := by
  rw [trimChars, List.reverse_eq_nil_iff, List.dropWhile_eq_nil_iff]
  simp only [List.mem_reverse]
  constructor
  · intro h c hc
    rw [← List.takeWhile_append_dropWhile (p := isBlank) (l := cs), List.mem_append] at hc
    exact hc.elim (fun hc => List.mem_takeWhile_imp hc) (h c)
  · exact fun h c hc => h c ((List.dropWhile_sublist _).subset hc)

theorem head?_trimChars (cs : List Char) : (trimChars cs).head? = (cs.dropWhile isBlank).head? := by
  rw [trimChars, List.head?_reverse]
  cases hrest : cs.dropWhile isBlank with
  | nil => rfl
  | cons c rest =>
    have hc : isBlank c = false := by
      have hhead := List.head?_dropWhile_not isBlank cs
      simpa [hrest] using hhead
    rw [List.reverse_cons, List.dropWhile_append]
    split
    · simp [hc]
    · simp

end AccumulatorMachine.Text
