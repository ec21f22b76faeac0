import SeededGarbling.Proofs.JsonRecords

/-!
# The forms of a record

A value that is taken for a record has many texts: an array, or an object whose entries come in any
order, without some that are at their default and with others between that nobody asks for. What is
written is one of them, and all of them are read as the value. Where other entries are refused, the
first of them is the fault.
-/

namespace SeededGarbling.Json

open Reader

namespace Members

variable {ρ σ : Type} {members : Members ρ σ} {values : ρ} {strict : Bool} {text : List Char}

section Forms

/-- The texts that give the values of the members. -/
inductive Form (members : Members ρ σ) (strict : Bool) (values : ρ) : List Char → Prop where
  /-- An object with entries in any order. -/
  | object {entries : List (String × List Char)} (h : members.SpelledBy strict values entries) :
    Form members strict values (Format.writeItems '{' '}' (entries.map writeEntry))
  /-- An array with items in the order of the members. -/
  | array {texts : List (List Char)} (h : members.SpelledInOrder values texts) :
    Form members strict values (Format.writeItems '[' ']' texts)

/-- Each of them spells the values. -/
theorem Form.spells (h : members.Form strict values text) (hnames : members.names.Nodup) :
    Spells (members.format strict).read text values := by
  cases h with
  | object h => exact spells_object hnames h
  | array h => exact spells_array h

end Forms

section Laws

/-- The names of the members are plain and different, and their formats are lawful. -/
def Lawful : {ρ σ : Type} → Members ρ σ → Prop
  | _, _, nil => True
  | _, _, cons name format _ rest =>
    Plain name ∧ name ∉ rest.names ∧ format.Lawful ∧ rest.Lawful

theorem Lawful.nodup_names (h : members.Lawful) : members.names.Nodup := by
  induction members with
  | nil => exact List.nodup_nil
  | cons name format default rest ih =>
    obtain ⟨_, hname, _, hrest⟩ := h
    exact List.nodup_cons.mpr ⟨hname, ih hrest⟩

/-- The entries that are written: every member with what is written for its value. -/
def entries : {ρ σ : Type} → Members ρ σ → ρ → List (String × List Char)
  | _, _, nil, () => []
  | _, _, cons name format _ rest, (value, values) =>
    (name, format.write value) :: rest.entries values

theorem write_eq_map_entries (members : Members ρ σ) (values : ρ) :
    members.write values = (members.entries values).map writeEntry := by
  induction members with
  | nil => rfl
  | cons name format default rest ih =>
    unfold write entries
    rw [ih]
    rfl

theorem map_fst_entries (members : Members ρ σ) (values : ρ) :
    (members.entries values).map Prod.fst = members.names := by
  induction members with
  | nil => rfl
  | cons name format default rest ih =>
    unfold entries names
    rw [List.map_cons, ih]

/-- An entry that is written has a plain name, and a compact text that spells the value. -/
theorem Lawful.spells_entries (h : members.Lawful) (values : ρ) :
    ∀ entry ∈ members.entries values,
      Plain entry.1 ∧ members.SpellsMember values entry.1 entry.2 ∧ Compact entry.2 := by
  induction members with
  | nil => exact fun _ hentry => absurd hentry List.not_mem_nil
  | cons name format default rest ih =>
    obtain ⟨hplain, _, hformat, hrest⟩ := h
    unfold entries
    rw [List.forall_mem_cons]
    refine ⟨⟨hplain, .inl ⟨rfl, hformat.spells _⟩, hformat.compact _⟩, fun entry hentry => ?_⟩
    obtain ⟨hname, htext, hcompact⟩ := ih hrest values.2 entry hentry
    exact ⟨hname, .inr htext, hcompact⟩

/-- An entry that is skipped: it belongs to no member, and nothing refuses it. -/
structure Skips (members : Members ρ σ) (strict : Bool) (entry : String × List Char) : Prop where
  /-- Names that no member has are not refused. -/
  lenient : strict = false
  /-- No member has the name. -/
  foreign : entry.1 ∉ members.names
  /-- The name can be read as it stands. -/
  plain : Plain entry.1
  /-- The text is that of some value. -/
  compact : Compact entry.2

/-- Entries that are written are accepted. -/
theorem Lawful.accepts_of_mem_entries (h : members.Lawful) (strict : Bool)
    {entry : String × List Char} (hentry : entry ∈ members.entries values) :
    members.Accepts strict values entry := by
  obtain ⟨hplain, htext, _⟩ := h.spells_entries values entry hentry
  exact ⟨hplain, .inl htext⟩

/-- They have different names. -/
theorem Lawful.pairwise_entries (h : members.Lawful) (values : ρ) :
    (members.entries values).Pairwise fun entry other => entry.1 ≠ other.1 := by
  have hnames := h.nodup_names
  rwa [← members.map_fst_entries values, List.Nodup, List.pairwise_map] at hnames

/-- What is written spells the values in any order, with other entries between, and without members
that are at their default. -/
theorem Lawful.spelledBy (h : members.Lawful) {given others order : List (String × List Char)}
    (hgiven : given.Sublist (members.entries values))
    (hcovered : members.Covered values (given.map Prod.fst))
    (hothers : ∀ entry ∈ others, members.Skips strict entry)
    (horder : (given ++ others).Perm order) : members.SpelledBy strict values order := by
  have hspelled : members.SpelledBy strict values (given ++ others) := by
    constructor
    case accepts =>
      intro entry hentry
      rcases List.mem_append.mp hentry with hentry | hentry
      · exact h.accepts_of_mem_entries strict (hgiven.subset hentry)
      · have hskips := hothers entry hentry
        exact ⟨hskips.plain, .inr ⟨hskips.lenient, hskips.foreign, hskips.compact⟩⟩
    case once =>
      -- entries that are skipped may share a name, for none of them is a member
      have honce := (h.pairwise_entries values).sublist hgiven
      refine List.pairwise_append.mpr ⟨honce.imp fun hne heq => absurd heq hne, ?_, ?_⟩
      · exact List.pairwise_of_forall_mem_list fun entry hentry _ _ _ =>
          (hothers entry hentry).foreign
      · exact fun entry _ other hother heq => heq ▸ (hothers other hother).foreign
    case covered =>
      refine hcovered.mono fun name hname => ?_
      rw [List.map_append]
      exact List.mem_append_left _ hname
  exact hspelled.perm horder

/-- Behind what is written, in any order, a name that no member has is refused where such are. -/
theorem Lawful.run_object_of_foreign (h : members.Lawful) {given order : List (String × List Char)}
    (hgiven : given.Sublist (members.entries values)) (horder : given.Perm order)
    {entry : String × List Char} (hplain : Plain entry.1) (hname : entry.1 ∉ members.names)
    (later : List (String × List Char)) (rest : List Char) :
    (members.format true).read.run
        (Format.writeItems '{' '}' ((order ++ entry :: later).map writeEntry) ++ rest) =
      .error (.unknownField entry.1 members.names) := by
  have haccepts : ∀ other ∈ order, members.Accepts true values other := fun other hother =>
    h.accepts_of_mem_entries true (hgiven.subset (horder.mem_iff.mpr hother))
  have honce : order.Pairwise fun a b => a.1 ≠ b.1 :=
    (horder.pairwise_iff Ne.symm).mp ((h.pairwise_entries values).sublist hgiven)
  exact Members.run_object_of_foreign h.nodup_names hplain hname later haccepts honce rest

/-- What is written spells the values, one item behind the other. -/
theorem Lawful.spelledInOrder (h : members.Lawful) (values : ρ) :
    members.SpelledInOrder values ((members.entries values).map Prod.snd) := by
  induction members with
  | nil => rfl
  | cons name format default rest ih =>
    obtain ⟨_, _, hformat, hrest⟩ := h
    exact ⟨hformat.spells _, ih hrest _⟩

/-- What is written for a record is one of its forms. -/
theorem Lawful.form_write (h : members.Lawful) (strict : Bool) (values : ρ) :
    members.Form strict values ((members.format strict).write values) := by
  have hcovered : members.Covered values ((members.entries values).map Prod.fst) :=
    covered_of_names fun name hname => by rwa [map_fst_entries]
  change members.Form strict values (Format.writeItems '{' '}' (members.write values))
  rw [write_eq_map_entries]
  have hnone : ∀ entry ∈ ([] : List (String × List Char)), members.Skips strict entry :=
    fun _ hentry => absurd hentry List.not_mem_nil
  refine .object (h.spelledBy (List.Sublist.refl _) hcovered hnone ?_)
  rw [List.append_nil]

/-- It is compact. -/
theorem Lawful.compact_write (h : members.Lawful) (strict : Bool) (values : ρ) :
    Compact ((members.format strict).write values) := by
  change Compact (Format.writeItems '{' '}' (members.write values))
  rw [write_eq_map_entries]
  refine compact_object fun entry hentry => ?_
  obtain ⟨hplain, _, hcompact⟩ := h.spells_entries values entry hentry
  exact ⟨hplain, hcompact⟩

end Laws

end Members

namespace Record

variable {α : Type} {record : Record α} {value : α} {text : List Char}

/-- The texts that give a value. -/
def Form (record : Record α) (value : α) (text : List Char) : Prop :=
  record.members.Form record.strict (record.out value) text

/-- The entries that are written for a value. -/
def entries (record : Record α) (value : α) : List (String × List Char) :=
  record.members.entries (record.out value)

/-- The members are lawful, and the values that are taken from a value make it again. -/
structure Lawful (record : Record α) : Prop where
  /-- The members are lawful. -/
  members : record.members.Lawful
  /-- Nothing is lost of a value. -/
  into_out : ∀ value, record.into (record.out value) = value

/-- Every form spells the value that it gives. -/
theorem Lawful.spells (h : record.Lawful) (hform : record.Form value text) :
    Spells record.format.read text value := by
  have hspells := (hform.spells h.members.nodup_names).map record.into
  rwa [h.into_out] at hspells

/-- Hence the format of a lawful record is lawful. -/
theorem Lawful.format (h : record.Lawful) : record.format.Lawful where
  spells value := h.spells (h.members.form_write record.strict (record.out value))
  compact value := h.members.compact_write record.strict (record.out value)

/-- A record is read in every form: each of the texts that give a value is read as the value. -/
structure ReadsForms (record : Record α) : Prop where
  /-- Every text that gives a value is read as the value. -/
  parse_form : ∀ value text, record.Form value text →
    record.format.parse (String.ofList text) = .ok value
  /-- What is written for the members may stand in an array, in order. -/
  parse_array : ∀ value, record.format.parse (String.ofList
    (Format.writeItems '[' ']' ((record.entries value).map Prod.snd))) = .ok value
  /-- It may stand in an object in any order, with other entries between where these are not
  refused; a member at its default may be missing. -/
  parse_object : ∀ value (given others order : List (String × List Char)),
    given.Sublist (record.entries value) →
    record.members.Covered (record.out value) (given.map Prod.fst) →
    (∀ entry ∈ others, record.members.Skips record.strict entry) → (given ++ others).Perm order →
      record.format.parse (String.ofList
        (Format.writeItems '{' '}' (order.map writeEntry))) = .ok value
  /-- Where other entries are refused, the first of them is the fault, whatever follows. -/
  parse_foreign : record.strict = true → ∀ value (given order later : List (String × List Char))
    (entry : String × List Char), given.Sublist (record.entries value) → given.Perm order →
    Plain entry.1 → entry.1 ∉ record.members.names →
      record.format.parse (String.ofList
        (Format.writeItems '{' '}' ((order ++ entry :: later).map writeEntry))) =
          .error (.unknownField entry.1 record.members.names)

/-- The values of a lawful record are read off all their forms. -/
theorem Lawful.readsForms (h : record.Lawful) : record.ReadsForms where
  parse_form _ _ hform := Format.parse_of_spells (h.spells hform)
  parse_array _ := Format.parse_of_spells (h.spells (.array (h.members.spelledInOrder _)))
  parse_object _ _ _ _ hgiven hcovered hothers horder := Format.parse_of_spells
    (h.spells (.object (h.members.spelledBy hgiven hcovered hothers horder)))
  parse_foreign hstrict _ _ _ later _ hgiven horder hplain hname := by
    have hrefused := h.members.run_object_of_foreign hgiven horder hplain hname later []
    rw [List.append_nil, ← hstrict] at hrefused
    apply Format.parse_of_refuses
    change (record.into <$> (record.members.format record.strict).read).run _ = _
    rw [map_eq_pure_bind]
    exact run_bind_of_refuses hrefused _

end Record

end SeededGarbling.Json
