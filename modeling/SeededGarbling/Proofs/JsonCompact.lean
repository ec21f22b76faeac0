import SeededGarbling.Proofs.JsonSpelling

/-!
# Compact texts

A compact text is that of a value of any kind, without blanks: a number, a literal, a plain name, or
what is put together from compact texts by brackets or braces. Such a text is skipped as a whole
where nobody asks for the value. How deep values may nest is bounded by the length of the text they
stand in, which is enough, as a text is longer than those inside it.
-/

namespace SeededGarbling.Json

open Reader

/-- The text of some value, without blanks. -/
structure Compact (text : List Char) : Prop where
  /-- The text is skipped if it may nest as deep as it is long. -/
  skipped : ∀ depth : List Char, text.length ≤ depth.length → Spells (skipNested depth) text ()
  /-- There are no blanks. -/
  unspaced : ∀ c ∈ text, isBlank c = false

/-- A compact text may stand where nobody asks for a value. -/
theorem Compact.spells_skip {text : List Char} (h : Compact text) : Spells skip text () where
  opens := (h.skipped text (Nat.le_refl _)).opens
  run rest hrest := (h.skipped (text ++ rest) (by simp)).run rest hrest

/-- A text is compact if it is skipped one level down. As it is not empty, there is such a level. -/
theorem compact_of_deeper {text : List Char}
    (h : ∀ (c : Char) (deeper : List Char), text.length ≤ deeper.length + 1 →
      Spells (skipNested (c :: deeper)) text ())
    (hunspaced : ∀ c ∈ text, isBlank c = false) : Compact text where
  skipped depth hdepth := by
    cases depth with
    | nil =>
      obtain ⟨c, body, rfl, _⟩ := (h ' ' [] (Nat.le_succ_of_le hdepth)).opens
      cases hdepth
    | cons c deeper => exact h c deeper hdepth
  unspaced := hunspaced

section Words

variable {rest : List Char}

/-- Literals are compact. -/
theorem compact_literal {word : List Char}
    (h : word ∈ [['t', 'r', 'u', 'e'], ['f', 'a', 'l', 's', 'e'], ['n', 'u', 'l', 'l']]) :
    Compact word := by
  simp only [List.mem_cons, List.not_mem_nil, or_false] at h
  refine compact_of_deeper (fun _ deeper _ => ?_) ?_
  · rcases h with rfl | rfl | rfl
    all_goals
      refine ⟨⟨_, _, rfl, rfl⟩, fun rest _ => ?_⟩
      unfold skipNested
      rw [List.cons_append, run_bind_of_reads (run_peek rfl)]
      exact run_exactly _ rest
  · rcases h with rfl | rfl | rfl <;> simp [isBlank]

/-- Nothing that ends a number begins a fraction. -/
theorem skipFraction_of_ends (h : Ends rest) : skipFraction rest = some rest := by
  unfold skipFraction
  split
  · cases (h '.' rfl).2
  · rfl

/-- Nor does it begin an exponent. -/
theorem skipExponent_of_ends (h : Ends rest) : skipExponent rest = some rest := by
  cases rest with
  | nil => rfl
  | cons c rest =>
    have hnumber := (h c rfl).2
    simp only [continuesNumber, Bool.or_eq_false_iff] at hnumber
    unfold skipExponent
    simp only [hnumber.1.2, hnumber.2, Bool.or_self, Bool.false_eq_true, if_false]

/-- Digits are skipped as a number. -/
theorem skipNumberFront_writeNatural (n : Nat) (h : Ends rest) :
    skipNumberFront (writeNatural n ++ rest) = some ((), rest) := by
  have hdigits : ∀ c ∈ writeNatural n, c.isDigit = true := fun c => isDigit_of_mem_writeNatural
  have hnatural := isNatural_writeNatural n
  obtain ⟨c, digits, htext, hc⟩ := exists_writeNatural_eq_cons n
  have hminus : c ≠ '-' := ne_of_isDigit hc rfl
  rw [htext] at hdigits hnatural ⊢
  unfold skipNumberFront
  dsimp only
  split
  · rename_i heq
    rw [List.cons_append, List.cons.injEq] at heq
    exact absurd heq.1 hminus
  · rw [List.takeWhile_append_of_pos hdigits, List.dropWhile_append_of_pos hdigits,
      h.takeWhile_eq_nil, h.dropWhile_eq_self, List.append_nil, if_pos hnatural,
      skipFraction_of_ends h]
    change (skipExponent rest >>= fun rest => some ((), rest)) = _
    rw [skipExponent_of_ends h]
    rfl

/-- Numbers are compact. -/
theorem compact_writeNatural (n : Nat) : Compact (writeNatural n) := by
  refine compact_of_deeper (fun _ deeper _ => ?_) fun c hc => ?_
  · have hnumber (rest : List Char) (hrest : Ends rest) := skipNumberFront_writeNatural n hrest
    obtain ⟨c, digits, htext, hc⟩ := exists_writeNatural_eq_cons n
    have hopens := opensValue_of_isDigit hc
    rw [htext] at hnumber ⊢
    refine ⟨⟨c, digits, rfl, hopens⟩, fun rest hrest => ?_⟩
    unfold skipNested
    rw [List.cons_append, run_bind_of_reads (run_peek (isBlank_of_opensValue hopens))]
    -- a digit begins none of the other values
    split
    case h_7 => exact run_ofOption (hnumber rest hrest)
    all_goals
      rename_i heq
      cases heq
      cases hc
  · exact isBlank_of_opensValue (opensValue_of_isDigit (isDigit_of_mem_writeNatural hc))

/-- Characters that stand for themselves are skipped up to the closing quote. -/
theorem skipStringFront_append {text : List Char} (h : text.all isPlain = true) :
    skipStringFront (text ++ '"' :: rest) = some ((), rest) := by
  induction text with
  | nil => simp [skipStringFront]
  | cons c text ih =>
    rw [List.all_cons, Bool.and_eq_true] at h
    obtain ⟨hc, htext⟩ := h
    simp only [isPlain, Bool.and_eq_true, bne_iff_ne, ne_eq, decide_eq_true_eq] at hc
    obtain ⟨⟨⟨hquote, hslash⟩, _⟩, hlow⟩ := hc
    rw [List.cons_append, skipStringFront.eq_def]
    split <;> simp_all

/-- A name that is written is skipped. -/
theorem run_skipString {name : String} (h : Plain name) (rest : List Char) :
    skipString.run (writeString name ++ rest) = .ok ((), rest) := by
  have hfront : skipStringFront (name.toList ++ '"' :: rest) = some ((), rest) :=
    skipStringFront_append h
  have htext : writeString name ++ rest = '"' :: (name.toList ++ '"' :: rest) := by
    simp [writeString]
  unfold skipString
  rw [htext, run_bind_of_reads (run_mark rfl), run_ofOption hfront]

/-- Between the quotes of a plain name there are no blanks. -/
theorem isBlank_of_mem_writeString {name : String} (h : Plain name) {c : Char}
    (hc : c ∈ writeString name) : isBlank c = false := by
  rw [writeString, List.mem_append, List.mem_cons, List.mem_singleton] at hc
  rcases hc with (rfl | hc) | rfl
  · rfl
  · have hplain := List.all_eq_true.mp h c hc
    simp only [isPlain, Bool.and_eq_true, Bool.not_eq_true'] at hplain
    exact hplain.1.2
  · rfl

/-- Plain names are compact. -/
theorem compact_writeString {name : String} (h : Plain name) : Compact (writeString name) := by
  refine compact_of_deeper (fun _ deeper _ => ⟨⟨_, _, rfl, rfl⟩, fun rest _ => ?_⟩) fun _ =>
    isBlank_of_mem_writeString h
  have hskipped := run_skipString h rest
  unfold skipNested
  change ((peek >>= fun next => _).run ('"' :: _)) = _
  rw [run_bind_of_reads (run_peek rfl)]
  exact hskipped

end Words

section Nesting

variable {texts : List (List Char)} {entries : List (String × List Char)}

/-- A text is no longer than the list it stands in. -/
theorem length_le_of_mem {text : List Char} (h : text ∈ texts) :
    text.length ≤ (joined texts).length := by
  cases texts with
  | nil => cases h
  | cons first texts =>
    rw [joined_cons, List.length_append]
    rcases List.mem_cons.mp h with rfl | h
    · exact Nat.le_add_right _ _
    · have hsub : (',' :: text).Sublist (texts.flatMap fun other => ',' :: other) := by
        rw [List.flatMap_def]
        exact List.sublist_flatten_of_mem (List.mem_map_of_mem h)
      have := hsub.length_le
      rw [List.length_cons] at this
      omega

theorem length_writeItems (opening closing : Char) (texts : List (List Char)) :
    (Format.writeItems opening closing texts).length = (joined texts).length + 2 := by
  simp [Format.writeItems, joined]

/-- Compact texts in brackets are compact. -/
theorem compact_array (h : ∀ text ∈ texts, Compact text) :
    Compact (Format.writeItems '[' ']' texts) := by
  refine compact_of_deeper (fun _ deeper hdepth => ⟨⟨_, _, rfl, rfl⟩, fun rest _ => ?_⟩)
    (forall_mem_writeItems rfl rfl rfl fun text htext => (h text htext).unspaced)
  rw [length_writeItems] at hdepth
  have hitems : List.Forall₂ (Spells (skipNested deeper)) texts (texts.map fun _ => ()) := by
    refine List.forall₂_map_right_iff.mpr (List.forall₂_same.mpr fun text htext => ?_)
    have hlength := length_le_of_mem htext
    exact (h text htext).skipped deeper (by omega)
  rw [writeItems_append]
  unfold skipNested
  rw [run_bind_of_reads (run_peek rfl)]
  exact run_bind_of_reads (run_items (.inl rfl) hitems rest) fun _ => pure ()

/-- Compact texts behind plain names in braces are compact. -/
theorem compact_object (h : ∀ entry ∈ entries, Plain entry.1 ∧ Compact entry.2) :
    Compact (Format.writeItems '{' '}' (entries.map writeEntry)) := by
  refine compact_of_deeper (fun _ deeper hdepth => ⟨⟨_, _, rfl, rfl⟩, fun rest _ => ?_⟩) ?_
  · rw [length_writeItems] at hdepth
    have hitems : List.Forall₂ (Spells do
        skipString
        mark ':'
        skipNested deeper) (entries.map writeEntry) (entries.map fun _ => ()) := by
      refine List.forall₂_map_right_iff.mpr (List.forall₂_map_left_iff.mpr
        (List.forall₂_same.mpr fun entry hentry => ⟨⟨_, _, rfl, rfl⟩, fun rest hrest => ?_⟩))
      obtain ⟨hplain, hcompact⟩ := h entry hentry
      have hmem : writeEntry entry ∈ entries.map writeEntry := List.mem_map_of_mem hentry
      have hlength := length_le_of_mem hmem
      rw [writeEntry, List.length_append, List.length_cons] at hlength
      rw [writeEntry_append, run_bind_of_reads (run_skipString hplain _),
        run_bind_of_reads (run_mark rfl), (hcompact.skipped deeper (by omega)).run rest hrest]
    rw [writeItems_append]
    unfold skipNested
    rw [run_bind_of_reads (run_peek rfl)]
    exact run_bind_of_reads (run_items (.inr rfl) hitems rest) fun _ => pure ()
  · refine forall_mem_writeItems rfl rfl rfl (List.forall_mem_map.mpr fun entry hentry c hc => ?_)
    obtain ⟨hplain, hcompact⟩ := h entry hentry
    rw [writeEntry, List.mem_append, List.mem_cons] at hc
    rcases hc with hc | rfl | hc
    · exact isBlank_of_mem_writeString hplain hc
    · rfl
    · exact hcompact.unspaced c hc

end Nesting

end SeededGarbling.Json
