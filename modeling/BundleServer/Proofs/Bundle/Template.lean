import BundleServer.Bundle.Markers

/-!
# Templates in pieces

A template can be cut at its placeholders in one way only, because a placeholder never begins inside another one: the
byte with which it begins stands in it just once (`Splits.eq_pieces`). Rendering cuts the template so and puts the key
between the pieces. Whatever bytes the key has, they are not looked at, so a template is rendered in front of any of its
placeholders and behind it on its own (`render_append`).
-/

namespace BundleServer

namespace Template

variable {template piece : Bytes} {others : List Bytes}

/-- Are these the pieces of a template between placeholders, with no placeholder left in any of them? -/
structure Splits (template : Bytes) (pieces : List Bytes) : Prop where
  filled : pieces ≠ []
  whole : placeholder.intercalate pieces = template
  free : ∀ piece ∈ pieces, ¬ placeholder <:+: piece

section Pieces

/-- While bytes of a placeholder are skipped nothing is looked at. -/
theorem piecesFrom_eq_drop (skip : Nat) (bytes : Bytes) : piecesFrom skip bytes = pieces (bytes.drop skip) := by
  induction bytes generalizing skip with
  | nil => cases skip <;> rfl
  | cons b rest ih =>
    cases skip with
    | zero => rfl
    | succ skip => exact ih skip

theorem pieces_placeholder_append (rest : Bytes) : pieces (placeholder ++ rest) = [] :: pieces rest := by
  have begins : placeholder.isPrefixOf (0x7B :: (placeholder.tail ++ rest)) = true :=
    List.isPrefixOf_iff_prefix.2 (List.prefix_append placeholder rest)
  change piecesFrom 0 (0x7B :: (placeholder.tail ++ rest)) = _
  rw [piecesFrom, if_pos begins, piecesFrom_eq_drop]
  rfl

theorem pieces_cons {b : UInt8} {rest : Bytes} (plain : ¬ placeholder <+: b :: rest) :
    pieces (b :: rest) = extendFirst b (pieces rest) :=
  if_neg fun begins => plain (List.isPrefixOf_iff_prefix.1 begins)

/-- A template is empty, or begins with a placeholder, or with a byte at which none begins. -/
@[elab_as_elim]
theorem induction_on_placeholders {motive : Bytes → Prop} (template : Bytes) (nil : motive [])
    (placeholder_append : ∀ rest, motive rest → motive (placeholder ++ rest))
    (cons : ∀ b rest, ¬ placeholder <+: b :: rest → motive rest → motive (b :: rest)) : motive template := by
  induction length : template.length using Nat.strongRecOn generalizing template with
  | ind bound ih =>
    by_cases begins : placeholder <+: template
    · obtain ⟨rest, rfl⟩ := begins
      have shorter : rest.length < bound := by
        rw [← length, List.length_append]
        exact Nat.lt_add_of_pos_left (by decide)
      exact placeholder_append rest (ih rest.length shorter rest rfl)
    · cases template with
      | nil => exact nil
      | cons b rest =>
        have shorter : rest.length < bound := length ▸ Nat.lt_succ_self rest.length
        exact cons b rest begins (ih rest.length shorter rest rfl)

end Pieces

section Splitting

theorem not_placeholder_infix_nil : ¬ placeholder <:+: [] := by
  rw [List.infix_nil]
  decide

/-- What stands between pieces stands in front of each piece but the first. -/
theorem intercalate_cons (between first : Bytes) (others : List Bytes) :
    between.intercalate (first :: others) = first ++ others.flatMap (between ++ ·) := by
  induction others generalizing first with
  | nil => rw [List.intercalate_singleton, List.flatMap_nil, List.append_nil]
  | cons next others ih =>
    rw [List.intercalate_cons_cons, ih next, List.flatMap_cons]
    simp only [List.append_assoc]

theorem intercalate_append (between : Bytes) {before after : List Bytes} (filled : before ≠ []) (filled' : after ≠ []) :
    between.intercalate (before ++ after) = between.intercalate before ++ between ++ between.intercalate after := by
  obtain ⟨first, others, rfl⟩ := List.exists_cons_of_ne_nil filled
  obtain ⟨next, rest, rfl⟩ := List.exists_cons_of_ne_nil filled'
  simp only [List.cons_append, intercalate_cons, List.flatMap_append, List.flatMap_cons, List.append_assoc]

/-- The first piece is what the template begins with. -/
theorem Splits.prefix_first (splits : Splits template (piece :: others)) : piece <+: template := by
  rw [← splits.whole, intercalate_cons]
  exact List.prefix_append piece _

/-- One more byte belongs to the first piece, if no placeholder begins at it. -/
theorem splits_extendFirst {b : UInt8} {rest : Bytes} {pieces : List Bytes} (plain : ¬ placeholder <+: b :: rest)
    (splits : Splits rest pieces) : Splits (b :: rest) (extendFirst b pieces) := by
  obtain ⟨first, others, rfl⟩ := List.exists_cons_of_ne_nil splits.filled
  obtain ⟨first_free, others_free⟩ := List.forall_mem_cons.1 splits.free
  refine ⟨List.cons_ne_nil _ _, ?_, List.forall_mem_cons.2 ⟨fun inside => ?_, others_free⟩⟩
  · rw [extendFirst, List.intercalate_cons_cons_left, splits.whole]
  · rcases List.infix_cons_iff.1 inside with begins | later
    · exact plain (begins.trans ((List.cons_prefix_cons).2 ⟨rfl, splits.prefix_first⟩))
    · exact first_free later

theorem splits_placeholder_append {rest : Bytes} {pieces : List Bytes} (splits : Splits rest pieces) :
    Splits (placeholder ++ rest) ([] :: pieces) := by
  refine ⟨List.cons_ne_nil _ _, ?_, List.forall_mem_cons.2 ⟨not_placeholder_infix_nil, splits.free⟩⟩
  rw [List.intercalate_cons_of_ne_nil splits.filled, splits.whole, List.nil_append]

theorem splits_pieces (template : Bytes) : Splits template (pieces template) := by
  induction template using induction_on_placeholders with
  | nil => exact ⟨List.cons_ne_nil _ _, rfl, List.forall_mem_singleton.2 not_placeholder_infix_nil⟩
  | placeholder_append rest ih => exact pieces_placeholder_append rest ▸ splits_placeholder_append ih
  | cons b rest plain ih => exact pieces_cons plain ▸ splits_extendFirst plain ih

/-- A template is its first piece, or goes on with a placeholder and the other pieces behind that. -/
theorem Splits.cases_cons (splits : Splits template (piece :: others)) :
    (others = [] ∧ template = piece) ∨ ∃ rest, template = piece ++ (placeholder ++ rest) ∧ Splits rest others := by
  cases others with
  | nil => exact .inl ⟨rfl, splits.whole.symm.trans List.intercalate_singleton⟩
  | cons next others =>
    refine .inr ⟨placeholder.intercalate (next :: others), ?_, List.cons_ne_nil _ _, rfl, ?_⟩
    · rw [← splits.whole, List.intercalate_cons_cons, List.append_assoc]
    · exact (List.forall_mem_cons.1 splits.free).2

/-- No placeholder begins inside another one: the byte with which it begins does not come again in it. -/
theorem eq_nil_of_placeholder_append {rest behind : Bytes} (free : ¬ placeholder <:+: piece)
    (same : placeholder ++ rest = piece ++ (placeholder ++ behind)) : piece = [] := by
  rcases List.append_eq_append_iff.1 same with ⟨more, whole, -⟩ | ⟨more, whole, overlap⟩
  · exact absurd (whole ▸ (List.prefix_append placeholder more).isInfix) free
  · cases piece with
    | nil => rfl
    | cons b piece =>
      have inner : piece ++ more = placeholder.tail := (congrArg List.tail whole).symm
      cases more with
      | nil =>
        rw [List.append_nil] at whole
        exact absurd (whole ▸ List.infix_rfl) free
      | cons c more =>
        have brace : c = 0x7B := (List.cons.inj overlap).1.symm
        have member : c ∈ placeholder.tail := inner ▸ List.mem_append_right piece List.mem_cons_self
        rw [brace] at member
        exact absurd member (by decide)

/-- A template is cut in one way only. -/
theorem Splits.eq_pieces {found : List Bytes} (splits : Splits template found) : found = pieces template := by
  induction template using induction_on_placeholders generalizing found with
  | nil =>
    obtain ⟨first, others, rfl⟩ := List.exists_cons_of_ne_nil splits.filled
    rcases splits.cases_cons with ⟨rfl, rfl⟩ | ⟨rest, whole, -⟩
    · rfl
    · cases first <;> cases whole
  | placeholder_append rest ih =>
    obtain ⟨first, others, rfl⟩ := List.exists_cons_of_ne_nil splits.filled
    have first_free := (List.forall_mem_cons.1 splits.free).1
    rcases splits.cases_cons with ⟨-, whole⟩ | ⟨behind, whole, further⟩
    · exact absurd (whole ▸ (List.prefix_append placeholder rest).isInfix) first_free
    · obtain rfl := eq_nil_of_placeholder_append first_free whole
      obtain rfl := List.append_cancel_left whole
      rw [pieces_placeholder_append, ih further]
  | cons b rest plain ih =>
    obtain ⟨first, others, rfl⟩ := List.exists_cons_of_ne_nil splits.filled
    obtain ⟨first_free, others_free⟩ := List.forall_mem_cons.1 splits.free
    cases first with
    | nil =>
      rcases splits.cases_cons with ⟨-, whole⟩ | ⟨behind, whole, -⟩
      · cases whole
      · exact absurd (whole ▸ List.prefix_append placeholder behind) plain
    | cons c first =>
      have whole := splits.whole
      rw [List.intercalate_cons_cons_left] at whole
      obtain ⟨rfl, inner⟩ := List.cons.inj whole
      have shorter : Splits rest (first :: others) := by
        refine ⟨List.cons_ne_nil _ _, inner, List.forall_mem_cons.2 ⟨fun inside => ?_, others_free⟩⟩
        exact first_free (inside.trans (List.suffix_cons c first).isInfix)
      rw [pieces_cons plain, ← ih shorter]
      rfl

/-- The pieces in front of a placeholder and those behind it are the pieces of the whole. -/
theorem splits_append {front behind : Bytes} {before after : List Bytes} (splits : Splits front before)
    (further : Splits behind after) : Splits (front ++ placeholder ++ behind) (before ++ after) := by
  refine ⟨List.append_ne_nil_of_left_ne_nil splits.filled after, ?_,
    List.forall_mem_append.2 ⟨splits.free, further.free⟩⟩
  rw [intercalate_append placeholder splits.filled further.filled, splits.whole, further.whole]

end Splitting

section Rendering

theorem render_of_splits {pieces : List Bytes} (splits : Splits template pieces) (key : Bytes) :
    render template key = key.intercalate pieces := by
  rw [render, splits.eq_pieces]

/-- Every placeholder is replaced, whatever stands in front of it and behind it. -/
theorem render_append (front behind key : Bytes) :
    render (front ++ placeholder ++ behind) key = render front key ++ key ++ render behind key := by
  have before := splits_pieces front
  have after := splits_pieces behind
  rw [render_of_splits (splits_append before after), intercalate_append key before.filled after.filled,
    ← render_of_splits before, ← render_of_splits after]

/-- Rendering substitutes the key for the placeholders in one pass. There is exactly one way to cut a template at
placeholders so that none is left in a piece, and the rendered template has the key between these pieces. Each
occurrence of the placeholder is replaced, and what stands in front of it and behind it is rendered as if it stood
alone. With the placeholder as the key a template stays as it is. -/
theorem render_substitutes :
    (∀ template : Bytes, ∃ pieces : List Bytes, Splits template pieces ∧
      (∀ others, Splits template others → others = pieces) ∧
      ∀ key, render template key = key.intercalate pieces) ∧
    (∀ front behind key : Bytes,
      render (front ++ placeholder ++ behind) key = render front key ++ key ++ render behind key) ∧
    ∀ template : Bytes, render template placeholder = template := by
  refine ⟨fun template => ?_, render_append, fun template => ?_⟩
  · exact ⟨pieces template, splits_pieces template, fun others splits => splits.eq_pieces, fun key => rfl⟩
  · exact (splits_pieces template).whole

-- The key completes what looks like another placeholder.
example : render (Utf8.encode "\x7b\x7bke\x7bkey\x7d \x7bkey\x7d") (Utf8.encode "y\x7d") =
    Utf8.encode "\x7b\x7bkey\x7d y\x7d" := by
  decide

end Rendering

end Template

end BundleServer
