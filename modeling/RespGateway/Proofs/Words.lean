import RespGateway.Text.Blank

/-!
# The words of a text

`Worded cs ws` says that a text consists of words and blanks, and `ws` are the words in
order: a word goes on until a blank or the end, so it is a longest run of characters that
are not blank. Every text has one list of words only, and `words` finds it
(`words_eq_iff`).
-/

namespace RespGateway.Text

/-- A text and the longest runs in it of characters that are not blank, in order. -/
inductive Worded : List Char → List (List Char) → Prop where
  | nil : Worded [] []
  | blank {c : Char} {cs : List Char} {ws : List (List Char)} :
      isBlank c = true → Worded cs ws → Worded (c :: cs) ws
  | word {w rest : List Char} {ws : List (List Char)} :
      w ≠ [] → (∀ c ∈ w, isBlank c = false) → (∀ c ∈ rest.head?, isBlank c = true) →
        Worded rest ws → Worded (w ++ rest) (w :: ws)

/-! ## Words from the right -/

/-- The word that a text begins with, empty where it begins with a blank, and the words after. -/
def cut (cs : List Char) : List Char × List (List Char) := cs.foldr prependChar ([], [])

/-- The words of a text that has been cut. -/
def gather : List Char × List (List Char) → List (List Char)
  | ([], ws) => ws
  | (w, ws) => w :: ws

theorem words_eq (cs : List Char) : words cs = gather (cut cs) := by
  rw [words, cut]
  split <;> rename_i hcut <;> rw [hcut]
  · rfl
  · rename_i ws hne
    rw [gather]
    exact hne

theorem prependChar_blank {c : Char} (h : isBlank c = true) (x : List Char × List (List Char)) :
    prependChar c x = ([], gather x) := by
  obtain ⟨w, ws⟩ := x
  cases w with
  | nil => rw [prependChar, if_pos h, gather]
  | cons d w =>
      rw [prependChar, if_pos h]
      · rfl
      · exact fun hnil => List.cons_ne_nil d w hnil

theorem prependChar_letter {c : Char} (h : isBlank c = false)
    (x : List Char × List (List Char)) : prependChar c x = (c :: x.1, x.2) := by
  have hno : ¬isBlank c = true := by rw [h]; decide
  obtain ⟨w, ws⟩ := x
  cases w with
  | nil => rw [prependChar, if_neg hno]
  | cons d w =>
      rw [prependChar, if_neg hno]
      exact fun h => List.cons_ne_nil d w h

theorem foldr_letters {w : List Char} (h : ∀ c ∈ w, isBlank c = false)
    (x : List Char × List (List Char)) : w.foldr prependChar x = (w ++ x.1, x.2) := by
  induction w with
  | nil => rfl
  | cons c w ih =>
      rw [List.forall_mem_cons] at h
      rw [List.foldr_cons, ih h.2, prependChar_letter h.1]
      rfl

/-- Where no word begins, all words come after. -/
theorem cut_break {rest : List Char} (h : ∀ c ∈ rest.head?, isBlank c = true) :
    cut rest = ([], words rest) := by
  cases rest with
  | nil => rfl
  | cons c rest => rw [words_eq, cut, List.foldr_cons, prependChar_blank (h c rfl)]; rfl

theorem words_blank {c : Char} (h : isBlank c = true) (cs : List Char) :
    words (c :: cs) = words cs := by
  rw [words_eq, words_eq, cut, List.foldr_cons, prependChar_blank h]
  rfl

theorem words_word {w rest : List Char} (hne : w ≠ []) (hw : ∀ c ∈ w, isBlank c = false)
    (hrest : ∀ c ∈ rest.head?, isBlank c = true) : words (w ++ rest) = w :: words rest := by
  have hcut : cut (w ++ rest) = (w, words rest) := by
    rw [cut, List.foldr_append, foldr_letters hw]
    change (w ++ (cut rest).1, (cut rest).2) = _
    rw [cut_break hrest, List.append_nil]
  rw [words_eq, hcut]
  cases w with
  | nil => exact absurd rfl hne
  | cons c w => rfl

/-! ## The words -/

theorem worded_gather {w rest : List Char} {ws : List (List Char)}
    (hw : ∀ c ∈ w, isBlank c = false) (hrest : ∀ c ∈ rest.head?, isBlank c = true)
    (hws : Worded rest ws) : Worded (w ++ rest) (gather (w, ws)) := by
  cases w with
  | nil => exact hws
  | cons c w => exact .word (List.cons_ne_nil c w) hw hrest hws

/-- What a cut leaves: the word is in front, what stands behind it has the words after. -/
theorem worded_cut (cs : List Char) :
    ∃ rest, cs = (cut cs).1 ++ rest ∧ (∀ c ∈ (cut cs).1, isBlank c = false) ∧
      (∀ c ∈ rest.head?, isBlank c = true) ∧ Worded rest (cut cs).2 := by
  induction cs with
  | nil => exact ⟨[], rfl, by simp [cut], by simp, .nil⟩
  | cons c cs ih =>
      obtain ⟨rest, hcs, hw, hrest, hws⟩ := ih
      have hcut : cut (c :: cs) = prependChar c (cut cs) := rfl
      cases hc : isBlank c with
      | true =>
          refine ⟨c :: cs, ?_, ?_, fun d hd => Option.some.inj hd ▸ hc, ?_⟩
          · rw [hcut, prependChar_blank hc, List.nil_append]
          · rw [hcut, prependChar_blank hc]
            simp
          · rw [hcut, prependChar_blank hc]
            have hgather := worded_gather hw hrest hws
            rw [← hcs] at hgather
            exact .blank hc hgather
      | false =>
          refine ⟨rest, ?_, ?_, hrest, ?_⟩
          · rw [hcut, prependChar_letter hc, List.cons_append, ← hcs]
          · rw [hcut, prependChar_letter hc]
            exact List.forall_mem_cons.mpr ⟨hc, hw⟩
          · rw [hcut, prependChar_letter hc]
            exact hws

/-- **A text has one list of words, the one that is found.** -/
theorem words_eq_iff {cs : List Char} {ws : List (List Char)} : words cs = ws ↔ Worded cs ws := by
  constructor
  · rintro rfl
    obtain ⟨rest, hcs, hw, hrest, hws⟩ := worded_cut cs
    have hgather := worded_gather hw hrest hws
    rw [← hcs] at hgather
    exact words_eq cs ▸ hgather
  · intro h
    induction h with
    | nil => rfl
    | blank hc _ ih => rw [words_blank hc, ih]
    | word hne hw hrest _ ih => rw [words_word hne hw hrest, ih]

/-- There is a word where there is a character that is not blank. -/
theorem words_ne_nil_iff {cs : List Char} :
    words cs ≠ [] ↔ ∃ c ∈ cs, isBlank c = false := by
  induction cs with
  | nil => simp [words]
  | cons c cs ih =>
      cases hc : isBlank c with
      | true => simp [words_blank hc, ih, hc]
      | false =>
          rw [words_eq, cut, List.foldr_cons, prependChar_letter hc]
          simp [gather, hc]

end RespGateway.Text
