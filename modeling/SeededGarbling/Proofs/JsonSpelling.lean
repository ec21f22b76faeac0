import Mathlib.Data.List.Forall2
import SeededGarbling.Text.Json.Format

/-!
# How values are spelled

A text spells a value if a reader takes exactly the text for the value, whatever comes behind it
that does not carry a number on. Texts that spell the items of a list spell the list when commas are
put between them.
-/

namespace SeededGarbling

namespace Reader

variable {α β : Type} {reader : Reader α} {text rest : List Char} {value : α}

/-- What comes next starts at what was left unread. -/
theorem run_bind_of_reads (h : reader.run text = .ok (value, rest)) (f : α → Reader β) :
    (reader >>= f).run text = (f value).run rest := by
  change (reader.run text >>= fun result => (f result.1).run result.2) = _
  rw [h]
  rfl

/-- Nothing comes next where something was refused. -/
theorem run_bind_of_refuses {cause : ReadError} (h : reader.run text = .error cause)
    (f : α → Reader β) : (reader >>= f).run text = .error cause := by
  change (reader.run text >>= fun result => (f result.1).run result.2) = _
  rw [h]
  rfl

/-- A value is read with whatever is made of it. -/
theorem run_map_of_reads (h : reader.run text = .ok (value, rest)) (f : α → β) :
    (f <$> reader).run text = .ok (f value, rest) := by
  rw [map_eq_pure_bind, run_bind_of_reads h]
  rfl

end Reader

namespace Json

open Reader

section Words

variable {c : Char} {text rest : List Char}

/-- The next character is looked at without being read. -/
theorem run_peek (h : isBlank c = false) : peek.run (c :: text) = .ok (some c, c :: text) := by
  change Except.ok (((c :: text).dropWhile isBlank).head?, (c :: text).dropWhile isBlank) = _
  rw [List.dropWhile_cons_of_neg (by rw [h]; decide)]
  rfl

/-- A mark is read off the front. -/
theorem run_mark (h : isBlank c = false) : (mark c).run (c :: rest) = .ok ((), rest) := by
  unfold mark
  rw [run_bind_of_reads (run_peek h), if_pos rfl]
  rfl

/-- A step that reads something is taken. -/
theorem run_ofOption {α : Type} {step : List Char → Option (α × List Char)} {value : α}
    (h : step text = some (value, rest)) : (ofOption step).run text = .ok (value, rest) := by
  simp only [ofOption, StateT.run, h]

/-- A word is read off the front. -/
theorem run_exactly (word rest : List Char) :
    (exactly word).run (word ++ rest) = .ok ((), rest) := by
  apply run_ofOption
  rw [if_pos (List.isPrefixOf_iff_prefix.mpr (List.prefix_append word rest)), List.drop_left]

/-- A choice that was checked before is taken over, and nothing is read. -/
theorem run_ofExcept {α : Type} {choice : Except ReadError α} {value : α} (h : choice = .ok value)
    (text : List Char) : (MonadExcept.ofExcept choice : Reader α).run text = .ok (value, text) := by
  rw [h]
  rfl

end Words

/-- The characters that a value may begin with: no blank, and no mark that closes a list. -/
def opensValue (c : Char) : Bool :=
  !isBlank c && c != ']' && c != '}'

theorem isBlank_of_opensValue {c : Char} (h : opensValue c = true) : isBlank c = false := by
  unfold opensValue at h
  cases hblank : isBlank c with
  | false => rfl
  | true =>
    rw [hblank] at h
    cases h

section Numbers

variable {bound n : Nat} {rest : List Char}

/-- What may stand behind a value: nothing that carries a number on. -/
def Ends (rest : List Char) : Prop :=
  ∀ c ∈ rest.head?, c.isDigit = false ∧ continuesNumber [c] = false

theorem ends_nil : Ends [] := by
  intro c hc
  cases hc

theorem ends_cons {c : Char} (hdigit : c.isDigit = false) (hnumber : continuesNumber [c] = false)
    (rest : List Char) : Ends (c :: rest) := by
  intro d hd
  cases hd
  exact ⟨hdigit, hnumber⟩

theorem Ends.takeWhile_eq_nil (h : Ends rest) : rest.takeWhile Char.isDigit = [] := by
  cases rest with
  | nil => rfl
  | cons c rest => exact List.takeWhile_cons_of_neg (by rw [(h c rfl).1]; decide)

theorem Ends.dropWhile_eq_self (h : Ends rest) : rest.dropWhile Char.isDigit = rest := by
  cases rest with
  | nil => rfl
  | cons c rest => exact List.dropWhile_cons_of_neg (by rw [(h c rfl).1]; decide)

theorem Ends.continuesNumber_eq_false (h : Ends rest) : continuesNumber rest = false := by
  cases rest with
  | nil => rfl
  | cons c rest => exact (h c rfl).2

/-- Only digits are written for a number. -/
theorem isDigit_of_mem_writeNatural {c : Char} (h : c ∈ writeNatural n) : c.isDigit = true :=
  Nat.isDigit_of_mem_toDigits (by decide) (by decide) h

/-- So the text of a number begins with a digit. -/
theorem exists_writeNatural_eq_cons (n : Nat) :
    ∃ c digits, writeNatural n = c :: digits ∧ c.isDigit = true := by
  obtain ⟨c, digits, htext⟩ := List.exists_cons_of_ne_nil (@Nat.toDigits_ne_nil n 10)
  refine ⟨c, digits, htext, @isDigit_of_mem_writeNatural n c ?_⟩
  rw [writeNatural, htext]
  exact List.mem_cons_self

theorem ne_of_isDigit {c d : Char} (hc : c.isDigit = true) (hd : d.isDigit = false) : c ≠ d := by
  rintro rfl
  rw [hc] at hd
  cases hd

/-- A digit is no blank and closes nothing. -/
theorem opensValue_of_isDigit {c : Char} (h : c.isDigit = true) : opensValue c = true := by
  have hne {d : Char} (hd : d.isDigit = false) : c ≠ d := ne_of_isDigit h hd
  simp [opensValue, isBlank, @hne ' ' rfl, @hne '\n' rfl, @hne '\t' rfl, @hne '\r' rfl,
    @hne ']' rfl, @hne '}' rfl]

/-- The digits of a number that is not zero do not begin with one. -/
theorem exists_writeNatural_of_pos (h : 0 < n) :
    ∃ c digits, writeNatural n = c :: digits ∧ c ≠ '0' := by
  induction n using Nat.strongRecOn with
  | ind n ih =>
    unfold writeNatural
    by_cases hsmall : n < 10
    · have hdigit : ∀ m < 10, 0 < m → m.digitChar ≠ '0' := by decide
      exact ⟨n.digitChar, [], Nat.toDigits_of_lt_base hsmall, hdigit n hsmall h⟩
    · obtain ⟨c, digits, hdigits, hc⟩ := ih (n / 10) (by omega) (by omega)
      rw [Nat.toDigits_of_base_le (by decide) (by omega)]
      exact ⟨c, digits ++ [(n % 10).digitChar], by rw [← List.cons_append, ← hdigits]; rfl, hc⟩

/-- So every number is written as a number should be. -/
theorem isNatural_writeNatural (n : Nat) : isNatural (writeNatural n) = true := by
  rcases Nat.eq_zero_or_pos n with rfl | hpos
  · rfl
  · obtain ⟨c, digits, hdigits, hc⟩ := exists_writeNatural_of_pos hpos
    rw [hdigits]
    unfold isNatural
    split
    · contradiction
    · rfl
    · rename_i heq
      rw [List.cons.injEq] at heq
      rw [← heq.1]
      simpa using hc

/-- The digits of a number below the bound are taken for it. -/
theorem naturalFront_writeNatural (h : n < bound) (hrest : Ends rest) :
    naturalFront bound (writeNatural n ++ rest) = some (n, rest) := by
  have hdigits : ∀ c ∈ writeNatural n, c.isDigit = true := fun c => isDigit_of_mem_writeNatural
  have hvalue : Nat.ofDigitChars 10 (writeNatural n) 0 = n :=
    Nat.ofDigitChars_toDigits (by decide) (by decide)
  unfold naturalFront
  dsimp only
  rw [List.takeWhile_append_of_pos hdigits, List.dropWhile_append_of_pos hdigits,
    hrest.takeWhile_eq_nil, hrest.dropWhile_eq_self, List.append_nil, hvalue]
  simp [isNatural_writeNatural, hrest.continuesNumber_eq_false, h]

end Numbers

/-- The reader takes exactly the text for the value. -/
structure Spells {α : Type} (reader : Reader α) (text : List Char) (value : α) : Prop where
  /-- The text can be told from the end of a list. -/
  opens : ∃ c body, text = c :: body ∧ opensValue c = true
  /-- The value is read, and what comes behind it is left. -/
  run : ∀ rest, Ends rest → reader.run (text ++ rest) = .ok (value, rest)

namespace Spells

variable {α β : Type} {reader : Reader α} {text : List Char} {value : α}

/-- A value is spelled with whatever is made of it. -/
theorem map (h : Spells reader text value) (f : α → β) : Spells (f <$> reader) text (f value) where
  opens := h.opens
  run rest hrest := run_map_of_reads (h.run rest hrest) f

/-- A value and what follows from it are read one after the other. -/
theorem bind_pure (h : Spells reader text value) {f : α → Reader β} {result : β}
    (hf : f value = pure result) : Spells (reader >>= f) text result where
  opens := h.opens
  run rest hrest := by
    rw [run_bind_of_reads (h.run rest hrest), hf]
    rfl

/-- Digits spell a number below the bound. -/
theorem natural {bound n : Nat} (h : n < bound) : Spells (natural bound) (writeNatural n) n := by
  have hfront (rest : List Char) (hrest : Ends rest) := naturalFront_writeNatural h hrest
  obtain ⟨c, digits, htext, hc⟩ := exists_writeNatural_eq_cons n
  have hopens := opensValue_of_isDigit hc
  rw [htext] at hfront ⊢
  refine ⟨⟨c, digits, rfl, hopens⟩, fun rest hrest => ?_⟩
  unfold Json.natural
  rw [List.cons_append, run_bind_of_reads (run_peek (isBlank_of_opensValue hopens))]
  exact run_ofOption (hfront rest hrest)

end Spells

section Items

variable {close : Char} {α : Type} {reader : Reader α} {texts : List (List Char)} {values : List α}

/-- Texts with commas between them. -/
def joined (texts : List (List Char)) : List Char :=
  (texts.intersperse [',']).flatten

theorem joined_cons (text : List Char) (texts : List (List Char)) :
    joined (text :: texts) = text ++ texts.flatMap fun other => ',' :: other := by
  unfold joined
  induction texts generalizing text with
  | nil => rfl
  | cons other texts ih =>
    rw [List.intersperse_cons_cons, List.flatten_cons, List.flatten_cons, ih other]
    rfl

/-- The first text is followed by a comma if there are others. -/
theorem joined_cons_cons_append (text other : List Char) (texts : List (List Char))
    (rest : List Char) :
    joined (text :: other :: texts) ++ rest = text ++ ',' :: (joined (other :: texts) ++ rest) := by
  rw [joined_cons, List.flatMap_cons, List.append_assoc, List.cons_append, List.cons_append,
    ← joined_cons]

theorem joined_singleton (text : List Char) : joined [text] = text := by
  rw [joined_cons, List.flatMap_nil, List.append_nil]

/-- Items that are written stand between their marks, with commas between them. -/
theorem writeItems_append (opening closing : Char) (texts : List (List Char)) (rest : List Char) :
    Format.writeItems opening closing texts ++ rest =
      opening :: (joined texts ++ closing :: rest) := by
  simp [Format.writeItems, joined]

/-- The marks that close a list or an object. -/
def Closes (close : Char) : Prop :=
  close = ']' ∨ close = '}'

theorem Closes.isBlank_eq_false (h : Closes close) : isBlank close = false := by
  rcases h with rfl | rfl <;> rfl

theorem Closes.ne_comma (h : Closes close) : some close ≠ some ',' := by
  rcases h with rfl | rfl <;> decide

theorem Closes.ne_of_opensValue (h : Closes close) {c : Char} (hc : opensValue c = true) :
    some c ≠ some close := by
  rintro ⟨⟩
  rcases h with rfl | rfl <;> cases hc

theorem Closes.ends (h : Closes close) (rest : List Char) : Ends (close :: rest) := by
  rcases h with rfl | rfl <;> exact ends_cons rfl rfl rest

/-- There is a comma in front of every text but the first, so the texts are no more than their
characters. -/
theorem length_le_length_joined (text : List Char) (texts : List (List Char)) :
    texts.length ≤ (joined (text :: texts)).length := by
  rw [joined_cons, List.length_append]
  induction texts with
  | nil => exact Nat.zero_le _
  | cons other texts ih =>
    rw [List.flatMap_cons, List.length_append, List.length_cons, List.length_cons]
    omega

/-- One or more items are read up to the mark that closes them. -/
theorem run_itemsUpTo (hclose : Closes close) {text : List Char} {value : α}
    (htext : Spells reader text value) (htexts : List.Forall₂ (Spells reader) texts values)
    {fuel : List Char} (hfuel : texts.length < fuel.length) (rest : List Char) :
    (itemsUpTo close reader fuel).run (joined (text :: texts) ++ close :: rest) =
      .ok (value :: values, rest) := by
  induction htexts generalizing text value fuel with
  | nil =>
    obtain _ | ⟨_, fuel⟩ := fuel
    · cases hfuel
    · rw [joined_singleton]
      unfold itemsUpTo
      rw [run_bind_of_reads (htext.run _ (hclose.ends rest)),
        run_bind_of_reads (run_peek hclose.isBlank_eq_false), if_neg hclose.ne_comma, if_pos rfl]
      rfl
  | @cons other value' texts values hother htexts ih =>
    obtain _ | ⟨_, fuel⟩ := fuel
    · cases hfuel
    · have hrest := ih hother (Nat.lt_of_succ_lt_succ hfuel)
      rw [joined_cons_cons_append]
      unfold itemsUpTo
      rw [run_bind_of_reads (htext.run _ (ends_cons rfl rfl _)), run_bind_of_reads (run_peek rfl),
        if_pos rfl]
      change ((itemsUpTo close reader fuel >>= fun later => pure (value :: later)).run
        (joined (other :: texts) ++ close :: rest)) = _
      rw [run_bind_of_reads hrest]
      rfl

/-- Any number of items are read up to the mark that closes them. -/
theorem run_items (hclose : Closes close) (h : List.Forall₂ (Spells reader) texts values)
    (rest : List Char) :
    (items close reader).run (joined texts ++ close :: rest) = .ok (values, rest) := by
  unfold items
  cases h with
  | nil =>
    change ((peek >>= fun next => _).run (close :: rest)) = _
    rw [run_bind_of_reads (run_peek hclose.isBlank_eq_false), if_pos rfl]
    rfl
  | @cons text value texts values htext htexts =>
    have hfuel : texts.length < (joined (text :: texts) ++ close :: rest).length := by
      rw [List.length_append, List.length_cons]
      have := length_le_length_joined text texts
      omega
    have hitems := run_itemsUpTo hclose htext htexts hfuel rest
    obtain ⟨c, body, rfl, hc⟩ := htext.opens
    rw [joined_cons] at hitems ⊢
    rw [List.cons_append, List.cons_append] at hitems ⊢
    rw [run_bind_of_reads (run_peek (isBlank_of_opensValue hc)),
      if_neg (hclose.ne_of_opensValue hc)]
    exact hitems

/-- What holds of the marks, of commas and of all characters of the items holds of all that is
written. -/
theorem forall_mem_writeItems {opening : Char} {P : Char → Prop} (hopening : P opening)
    (hclosing : P close) (hcomma : P ',') (htexts : ∀ text ∈ texts, ∀ c ∈ text, P c) :
    ∀ c ∈ Format.writeItems opening close texts, P c := by
  have hwritten := writeItems_append opening close texts []
  rw [List.append_nil] at hwritten
  intro c hc
  rw [hwritten, List.mem_cons, List.mem_append, List.mem_singleton] at hc
  rcases hc with rfl | hc | rfl
  · exact hopening
  · cases texts with
    | nil => cases hc
    | cons text texts =>
      rw [List.forall_mem_cons] at htexts
      rw [joined_cons, List.mem_append, List.mem_flatMap] at hc
      rcases hc with hc | ⟨other, hother, hc⟩
      · exact htexts.1 c hc
      · rcases List.mem_cons.mp hc with rfl | hc
        · exact hcomma
        · exact htexts.2 other hother c hc
  · exact hclosing

end Items

section Strings

variable {text rest : List Char}

/-- A character that stands for itself between quotes, and that is no blank. -/
def isPlain (c : Char) : Bool :=
  c != '"' && c != '\\' && !isBlank c && 0x20 ≤ c.toNat

/-- A name all of whose characters stand for themselves. -/
def Plain (name : String) : Prop :=
  name.toList.all isPlain = true

/-- Characters that stand for themselves are read up to the closing quote. -/
theorem stringFront_append (h : text.all isPlain = true) (read : List Char) :
    stringFront read (text ++ '"' :: rest) = some (read.reverse ++ text, rest) := by
  induction text generalizing read with
  | nil => simp [stringFront]
  | cons c text ih =>
    rw [List.all_cons, Bool.and_eq_true] at h
    obtain ⟨hc, htext⟩ := h
    simp only [isPlain, Bool.and_eq_true, bne_iff_ne, ne_eq, decide_eq_true_eq] at hc
    obtain ⟨⟨⟨hquote, hslash⟩, _⟩, hlow⟩ := hc
    rw [List.cons_append, stringFront.eq_def]
    split <;> simp_all

/-- A name that is written is read back. -/
theorem run_string {name : String} (h : Plain name) (rest : List Char) :
    string.run (writeString name ++ rest) = .ok (name, rest) := by
  have hfront : stringFront [] (name.toList ++ '"' :: rest) = some (name.toList, rest) :=
    stringFront_append h []
  have htext : writeString name ++ rest = '"' :: (name.toList ++ '"' :: rest) := by
    simp [writeString]
  unfold string
  rw [htext, run_bind_of_reads (run_mark rfl), run_bind_of_reads (run_ofOption hfront),
    String.ofList_toList]
  rfl

/-- An entry of an object: a name, and the text behind it. -/
def writeEntry (entry : String × List Char) : List Char :=
  writeString entry.1 ++ ':' :: entry.2

theorem writeEntry_append (entry : String × List Char) (rest : List Char) :
    writeEntry entry ++ rest = writeString entry.1 ++ ':' :: (entry.2 ++ rest) := by
  simp [writeEntry]

end Strings

end Json

end SeededGarbling
