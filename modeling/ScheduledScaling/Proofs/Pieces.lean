import ScheduledScaling.Text.Blank
/-!
# Texts that are cut

A text has the pieces of the parts it was put together of (`pieces_intercalate`), and it is these parts
if no separator is in them (`pieces_eq_iff`). A text is cut at the first separator in it
(`cut?_eq_some_iff`).
-/
namespace ScheduledScaling.Text

/-! ## At every separator -/

section
variable {isSeparator : Char → Bool} {c : Char} {s : List Char}

/-- The pieces of a text are those that the library cuts it into. -/
theorem pieces_eq_splitOnP (isSeparator : Char → Bool) (s : List Char) :
    pieces isSeparator s = s.splitOnP isSeparator := by
  induction s with
  | nil => rfl
  | cons c s ih =>
    rw [pieces, List.splitOnP_cons_eq_if_modifyHead, ← ih]
    split
    · rfl
    · cases hp : pieces isSeparator s with
      | nil => exact absurd hp (pieces_ne_nil _ s)
      | cons first others => rfl

theorem pieces_append (hc : isSeparator c) (s rest : List Char) :
    pieces isSeparator (s ++ c :: rest) = pieces isSeparator s ++ pieces isSeparator rest := by
  simp only [pieces_eq_splitOnP]
  exact List.splitOnP_append_cons s rest hc

/-- A text without separators is one piece. -/
theorem pieces_of_forall (h : ∀ c ∈ s, isSeparator c = false) : pieces isSeparator s = [s] := by
  rw [pieces_eq_splitOnP]
  exact List.splitOnP_eq_singleton h

/-- A text that was put together of parts has the pieces of all of them. -/
theorem pieces_intercalate {parts : List (List Char)} (h : parts ≠ []) :
    pieces (· == c) ([c].intercalate parts) = parts.flatMap (pieces (· == c)) := by
  induction parts with
  | nil => exact absurd rfl h
  | cons part rest ih =>
    cases rest with
    | nil => simp
    | cons next rest =>
      rw [List.flatMap_cons, ← ih (List.cons_ne_nil next rest), List.intercalate_cons_cons,
        List.append_assoc, List.singleton_append]
      exact pieces_append (by simp) part _

theorem not_mem_of_mem_pieces {piece : List Char} (h : piece ∈ pieces (· == c) s) : c ∉ piece := by
  induction s generalizing piece with
  | nil =>
    rw [List.mem_singleton.1 h]
    exact List.not_mem_nil
  | cons d s ih =>
    rw [pieces] at h
    split at h
    · rcases List.mem_cons.1 h with rfl | h
      · exact List.not_mem_nil
      · exact ih h
    · rename_i hd
      cases hs : pieces (· == c) s with
      | nil => exact absurd hs (pieces_ne_nil _ s)
      | cons first others =>
        rw [hs] at h
        rcases List.mem_cons.1 h with rfl | h
        · rw [List.mem_cons, not_or]
          exact ⟨fun h => hd (beq_iff_eq.2 h.symm), ih (hs ▸ List.mem_cons_self)⟩
        · exact ih (hs ▸ List.mem_cons_of_mem _ h)

/-- The pieces of a text are those texts without separators that it is put together of. -/
theorem pieces_eq_iff {parts : List (List Char)} :
    pieces (· == c) s = parts ↔
      parts ≠ [] ∧ (∀ part ∈ parts, c ∉ part) ∧ s = [c].intercalate parts := by
  constructor
  · rintro rfl
    refine ⟨pieces_ne_nil _ s, fun part => not_mem_of_mem_pieces, ?_⟩
    rw [pieces_eq_splitOnP]
    exact (List.intercalate_splitOn c).symm
  · rintro ⟨hne, hparts, rfl⟩
    rw [pieces_eq_splitOnP]
    exact List.splitOn_intercalate c hparts hne

end

/-! ## At the first separator -/

section
variable {c : Char} {s before after : List Char}

theorem cut?_of_not_mem (h : c ∉ s) : cut? c s = none := by
  induction s with
  | nil => rfl
  | cons d s ih =>
    rw [List.mem_cons, not_or] at h
    rw [cut?, if_neg (Ne.symm h.1), ih h.2]
    rfl

theorem cut?_append (h : c ∉ s) (rest : List Char) : cut? c (s ++ c :: rest) = some (s, rest) := by
  induction s with
  | nil => exact if_pos rfl
  | cons d s ih =>
    rw [List.mem_cons, not_or] at h
    rw [List.cons_append, cut?, if_neg (Ne.symm h.1), ih h.2]
    rfl

theorem cut?_eq_some_iff : cut? c s = some (before, after) ↔ s = before ++ c :: after ∧ c ∉ before := by
  constructor
  · intro h
    induction s generalizing before with
    | nil => cases h
    | cons d s ih =>
      rw [cut?] at h
      split at h
      · rename_i hd
        cases h
        exact ⟨congrArg (· :: _) hd, List.not_mem_nil⟩
      · rename_i hd
        obtain ⟨⟨first, rest⟩, hcut, heq⟩ := Option.map_eq_some_iff.1 h
        cases heq
        obtain ⟨rfl, hnot⟩ := ih hcut
        exact ⟨rfl, by simp [hnot, Ne.symm hd]⟩
  · rintro ⟨rfl, h⟩
    exact cut?_append h after

end

/-! ## After a beginning -/

theorem dropPrefix?_eq_some_iff {start s rest : List Char} :
    dropPrefix? start s = some rest ↔ s = start ++ rest := by
  induction start generalizing s with
  | nil => simp [dropPrefix?]
  | cons c start ih =>
    cases s with
    | nil => simp [dropPrefix?]
    | cons d s =>
      rw [dropPrefix?, List.cons_append, List.cons.injEq]
      split
      · simp_all
      · simp_all [eq_comm]

end ScheduledScaling.Text
