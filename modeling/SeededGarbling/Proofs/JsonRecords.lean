import SeededGarbling.Proofs.JsonFormats
import SeededGarbling.Text.Json.Record

/-!
# How records are spelled

An object spells the values of a record whatever the order of its entries: members at their default
may be missing, and entries that belong to no member may stand between the others where they are not
refused; where they are, the first of them is the fault. An array spells the values in the order of
the members. What has been read of an object is known by the names that have been read, so that an
entry more is a name more.
-/

namespace SeededGarbling.Json

open Reader

namespace Members

variable {ρ σ : Type} {members : Members ρ σ} {values : ρ} {strict : Bool} {name : String}
  {read : List String} {text : List Char}

section Known

/-- What is known of the values once the members with the given names have been read. -/
def known : {ρ σ : Type} → Members ρ σ → ρ → (read : List String) → σ
  | _, _, nil, (), _ => ()
  | _, _, cons name _ _ rest, (value, values), read =>
    (if name ∈ read then some value else none, rest.known values read)

/-- At first nothing is known. -/
theorem known_nil (members : Members ρ σ) (values : ρ) :
    members.known values [] = members.blank := by
  induction members with
  | nil => rfl
  | cons name format default rest ih =>
    unfold known blank
    rw [ih, if_neg List.not_mem_nil]

/-- The name of no member adds nothing. -/
theorem known_cons_of_not_mem (h : name ∉ members.names) :
    members.known values (name :: read) = members.known values read := by
  induction members with
  | nil => rfl
  | cons member format default rest ih =>
    unfold names at h
    rw [List.mem_cons, not_or] at h
    unfold known
    rw [ih h.2]
    simp [Ne.symm h.1]

/-- Every member was read, or its value is its default. -/
def Covered : {ρ σ : Type} → Members ρ σ → ρ → (read : List String) → Prop
  | _, _, nil, (), _ => True
  | _, _, cons name _ default rest, (value, values), read =>
    (name ∈ read ∨ default = some value) ∧ rest.Covered values read

/-- The order in which members were read does not matter. -/
theorem Covered.mono (h : members.Covered values read) {others : List String}
    (hsub : ∀ name ∈ read, name ∈ others) : members.Covered values others := by
  induction members with
  | nil => trivial
  | cons name format default rest ih => exact ⟨h.1.imp_left (hsub name), ih h.2⟩

/-- It is enough to have read all names. -/
theorem covered_of_names (h : ∀ name ∈ members.names, name ∈ read) :
    members.Covered values read := by
  induction members with
  | nil => trivial
  | cons name format default rest ih =>
    unfold names at h
    rw [List.forall_mem_cons] at h
    exact ⟨.inl h.1, ih h.2⟩

/-- Then the values are complete. -/
theorem complete_known (h : members.Covered values read) :
    members.complete (members.known values read) = .ok values := by
  induction members with
  | nil => rfl
  | cons name format default rest ih =>
    obtain ⟨value, values⟩ := values
    have hvalue : (if name ∈ read then some value else none).or default = some value := by
      by_cases hread : name ∈ read
      · rw [if_pos hread, Option.some_or]
      · rw [if_neg hread, Option.none_or, h.1.resolve_left hread]
    unfold known complete
    dsimp only
    rw [hvalue, ih h.2]
    rfl

end Known

section Slots

/-- The text spells the value of the member with the name. -/
def SpellsMember : {ρ σ : Type} → Members ρ σ → ρ → (name : String) → (text : List Char) → Prop
  | _, _, nil, (), _, _ => False
  | _, _, cons member format _ rest, (value, values), name, text =>
    member = name ∧ Spells format.read text value ∨ rest.SpellsMember values name text

theorem SpellsMember.mem_names (h : members.SpellsMember values name text) :
    name ∈ members.names := by
  induction members with
  | nil => cases h
  | cons member format default rest ih =>
    rcases h with ⟨rfl, _⟩ | h
    · exact List.mem_cons_self
    · exact List.mem_cons_of_mem member (ih h)

/-- The name of no member has no slot. -/
theorem slot?_eq_none (h : name ∉ members.names) (state : σ) : members.slot? name state = none := by
  induction members with
  | nil => rfl
  | cons member format default rest ih =>
    unfold names at h
    rw [List.mem_cons, not_or] at h
    unfold slot?
    rw [if_neg (Ne.symm h.1), ih h.2]
    rfl

/-- The slot of a member that was not read yet takes the text for its value. -/
theorem exists_slot (hnames : members.names.Nodup) (h : members.SpellsMember values name text)
    (hread : name ∉ read) :
    ∃ reader, members.slot? name (members.known values read) = some (.ok reader) ∧
      Spells reader text (members.known values (name :: read)) := by
  induction members with
  | nil => cases h
  | cons member format default rest ih =>
    obtain ⟨value, values⟩ := values
    unfold names at hnames
    rw [List.nodup_cons] at hnames
    rcases h with ⟨rfl, htext⟩ | h
    -- no member behind this one has its name, so what is known of them stays
    · refine ⟨do return (some (← format.read), rest.known values read), ?_, htext.bind_pure ?_⟩
      · simp only [known, slot?, if_pos, if_neg hread]
      · rw [known, if_pos List.mem_cons_self, known_cons_of_not_mem hnames.1]
    · have hne : member ≠ name := by
        rintro rfl
        exact hnames.1 h.mem_names
      obtain ⟨reader, hslot, hreader⟩ := ih hnames.2 h
      refine ⟨do return (if member ∈ read then some value else none, ← reader), ?_,
        hreader.bind_pure ?_⟩
      · simp only [known, slot?, if_neg hne, hslot]
        rfl
      · simp [known, hne]

end Slots

section Objects

variable {entry : String × List Char} {entries : List (String × List Char)} {rest : List Char}

/-- An entry gives the value of a member, or belongs to none and is skipped. -/
structure Accepts (members : Members ρ σ) (strict : Bool) (values : ρ)
    (entry : String × List Char) : Prop where
  /-- The name can be read as it stands. -/
  plain : Plain entry.1
  /-- The text spells the value of the member. What belongs to none is the text of any value, and
  must not be refused. -/
  spells : members.SpellsMember values entry.1 entry.2 ∨
    strict = false ∧ entry.1 ∉ members.names ∧ Compact entry.2

/-- Entries that spell the values of all members. -/
structure SpelledBy (members : Members ρ σ) (strict : Bool) (values : ρ)
    (entries : List (String × List Char)) : Prop where
  /-- Every entry is accepted. -/
  accepts : ∀ entry ∈ entries, members.Accepts strict values entry
  /-- No member comes twice. -/
  once : entries.Pairwise fun entry other => entry.1 = other.1 → entry.1 ∉ members.names
  /-- A member that does not come has its default. -/
  covered : members.Covered values (entries.map Prod.fst)

/-- The order of the entries does not matter. -/
theorem SpelledBy.perm (h : members.SpelledBy strict values entries)
    {others : List (String × List Char)} (hperm : entries.Perm others) :
    members.SpelledBy strict values others where
  accepts entry hentry := h.accepts entry (hperm.mem_iff.mpr hentry)
  once := by
    refine (hperm.pairwise_iff fun hab heq => ?_).mp h.once
    rw [heq]
    exact hab heq.symm
  covered := h.covered.mono fun _ => (hperm.map Prod.fst).mem_iff.mp

/-- One entry is read into what is known. -/
theorem spells_entry (hnames : members.names.Nodup) (h : members.Accepts strict values entry)
    (hread : entry.1 ∈ members.names → entry.1 ∉ read) :
    Spells (members.readMember strict (members.known values read)) (writeEntry entry)
      (members.known values (entry.1 :: read)) := by
  refine ⟨⟨'"', _, rfl, rfl⟩, fun rest hrest => ?_⟩
  unfold readMember
  rw [writeEntry_append, run_bind_of_reads (run_string h.plain _)]
  rcases h.spells with hmember | ⟨rfl, hname, hcompact⟩
  · obtain ⟨reader, hslot, hreader⟩ := exists_slot hnames hmember (hread hmember.mem_names)
    rw [hslot]
    dsimp only
    rw [run_bind_of_reads (run_ofExcept rfl _), run_bind_of_reads (run_mark rfl),
      hreader.run rest hrest]
  · rw [slot?_eq_none hname]
    dsimp only
    rw [if_neg (by decide), run_bind_of_reads (run_mark rfl),
      run_bind_of_reads (hcompact.spells_skip.run rest hrest), known_cons_of_not_mem hname]
    rfl

/-- Behind one entry and a comma the others are read. -/
theorem run_readNamed_cons (hnames : members.names.Nodup) (h : members.Accepts strict values entry)
    (hread : entry.1 ∈ members.names → entry.1 ∉ read) (c : Char) (fuel rest : List Char) :
    (members.readNamed strict (c :: fuel) (members.known values read)).run
        (writeEntry entry ++ ',' :: rest) =
      (members.readNamed strict fuel (members.known values (entry.1 :: read))).run rest := by
  have hentry := (spells_entry hnames h hread).run (',' :: rest) (ends_cons rfl rfl rest)
  rw [readNamed, run_bind_of_reads hentry, run_bind_of_reads (run_peek rfl), if_pos rfl]
  rfl

/-- One or more entries are read up to the closing brace. -/
theorem run_readNamed (hnames : members.names.Nodup)
    (haccepts : ∀ other ∈ entry :: entries, members.Accepts strict values other)
    (honce : (entry :: entries).Pairwise fun a b => a.1 = b.1 → a.1 ∉ members.names)
    (hread : ∀ other ∈ entry :: entries, other.1 ∈ members.names → other.1 ∉ read)
    {fuel : List Char} (hfuel : entries.length < fuel.length) (rest : List Char) :
    (members.readNamed strict fuel (members.known values read)).run
        (joined ((entry :: entries).map writeEntry) ++ '}' :: rest) =
      .ok (members.known values (((entry :: entries).map Prod.fst).reverse ++ read), rest) := by
  -- behind one entry its name is among those that have been read, and none of the others repeats it
  induction entries generalizing entry read fuel with
  | nil =>
    obtain _ | ⟨_, fuel⟩ := fuel
    · cases hfuel
    · have hentry := spells_entry hnames (haccepts entry List.mem_cons_self)
        (hread entry List.mem_cons_self)
      rw [List.map_cons, List.map_nil, joined_singleton]
      unfold readNamed
      rw [run_bind_of_reads (hentry.run _ (ends_cons rfl rfl _)), run_bind_of_reads (run_peek rfl),
        if_neg (by decide), if_pos rfl]
      rfl
  | cons other entries ih =>
    obtain _ | ⟨_, fuel⟩ := fuel
    · cases hfuel
    · rw [List.forall_mem_cons] at haccepts hread
      rw [List.pairwise_cons] at honce
      have hlater : ∀ later ∈ other :: entries, later.1 ∈ members.names →
          later.1 ∉ entry.1 :: read := by
        intro later hlater hmember
        rw [List.mem_cons, not_or]
        refine ⟨fun heq => ?_, hread.2 later hlater hmember⟩
        exact honce.1 later hlater heq.symm (heq ▸ hmember)
      have hrest := ih haccepts.2 honce.2 hlater (Nat.lt_of_succ_lt_succ hfuel)
      have hnamesRead : ((entry :: other :: entries).map Prod.fst).reverse ++ read =
          ((other :: entries).map Prod.fst).reverse ++ entry.1 :: read := by simp
      rw [List.map_cons, List.map_cons, joined_cons_cons_append, ← List.map_cons,
        run_readNamed_cons hnames haccepts.1 hread.1, hrest, hnamesRead]

/-- There are more characters than entries behind the first. -/
theorem length_lt_length_entries (entry : String × List Char) (entries : List (String × List Char))
    (c : Char) (rest : List Char) :
    entries.length < (joined ((entry :: entries).map writeEntry) ++ c :: rest).length := by
  have hlength := length_le_length_joined (writeEntry entry) (entries.map writeEntry)
  rw [List.length_map] at hlength
  rw [List.length_append, List.length_cons, List.map_cons]
  omega

/-- An object with entries is what is read of them, and the values that this makes. -/
theorem run_readObject_cons (members : Members ρ σ) (strict : Bool) (entry : String × List Char)
    (entries : List (String × List Char)) (rest : List Char) :
    (members.readObject strict).run (joined ((entry :: entries).map writeEntry) ++ rest) =
      (members.readNamed strict (joined ((entry :: entries).map writeEntry) ++ rest) members.blank >>=
        fun state => MonadExcept.ofExcept (members.complete state)).run
          (joined ((entry :: entries).map writeEntry) ++ rest) := by
  obtain ⟨tail, htail⟩ : ∃ tail, joined ((entry :: entries).map writeEntry) ++ rest =
      '"' :: tail := ⟨_, by rw [List.map_cons, joined_cons]; rfl⟩
  unfold readObject
  rw [htail, run_bind_of_reads (run_peek rfl), if_neg (by decide)]
  rfl

/-- Any number of entries are read up to the closing brace, and give the values. -/
theorem run_readObject (hnames : members.names.Nodup)
    (h : members.SpelledBy strict values entries) (rest : List Char) :
    (members.readObject strict).run (joined (entries.map writeEntry) ++ '}' :: rest) =
      .ok (values, rest) := by
  have hknown : members.Covered values ((entries.map Prod.fst).reverse ++ []) :=
    h.covered.mono fun name hname => by simpa using hname
  cases entries with
  | nil =>
    have hcomplete := complete_known hknown
    rw [List.map_nil, List.reverse_nil, List.append_nil, known_nil] at hcomplete
    unfold readObject
    change ((peek >>= fun next => _).run ('}' :: rest)) = _
    rw [run_bind_of_reads (run_peek rfl), if_pos rfl]
    exact run_ofExcept hcomplete rest
  | cons entry entries =>
    have hentries := run_readNamed hnames h.accepts h.once
      (fun _ _ _ => List.not_mem_nil) (length_lt_length_entries entry entries '}' rest) rest
    rw [known_nil] at hentries
    rw [run_readObject_cons, run_bind_of_reads hentries]
    exact run_ofExcept (complete_known hknown) rest

/-- An object spells the values of its members, in whatever order its entries come. -/
theorem spells_object (hnames : members.names.Nodup)
    (h : members.SpelledBy strict values entries) :
    Spells (members.format strict).read (Format.writeItems '{' '}' (entries.map writeEntry))
      values := by
  refine ⟨⟨_, _, rfl, rfl⟩, fun rest _ => ?_⟩
  rw [writeItems_append]
  change ((peek >>= fun next => _).run ('{' :: _)) = _
  rw [run_bind_of_reads (run_peek rfl), if_pos rfl]
  exact run_readObject hnames h rest

/-- Where names that no member has are refused, such a name is. -/
theorem run_readMember_of_foreign (hplain : Plain entry.1) (hname : entry.1 ∉ members.names)
    (state : σ) (rest : List Char) :
    (members.readMember true state).run (writeEntry entry ++ rest) =
      .error (.unknownField entry.1 members.names) := by
  unfold readMember
  rw [writeEntry_append, run_bind_of_reads (run_string hplain _), slot?_eq_none hname]
  rfl

/-- It is refused behind any entries that are accepted, whatever follows. -/
theorem run_readNamed_of_foreign (hnames : members.names.Nodup) (hplain : Plain entry.1)
    (hname : entry.1 ∉ members.names) (later : List (String × List Char))
    (haccepts : ∀ other ∈ entries, members.Accepts true values other)
    (honce : entries.Pairwise fun a b => a.1 ≠ b.1) (hread : ∀ other ∈ entries, other.1 ∉ read)
    {fuel : List Char} (hfuel : entries.length < fuel.length) (rest : List Char) :
    (members.readNamed true fuel (members.known values read)).run
        (joined ((entries ++ entry :: later).map writeEntry) ++ rest) =
      .error (.unknownField entry.1 members.names) := by
  -- accepted entries add their names to those that have been read, up to the foreign one
  induction entries generalizing read fuel with
  | nil =>
    obtain _ | ⟨c, fuel⟩ := fuel
    · cases hfuel
    · rw [List.nil_append, List.map_cons, joined_cons, List.append_assoc, readNamed]
      exact run_bind_of_refuses (run_readMember_of_foreign hplain hname _ _) _
  | cons other entries ih =>
    obtain _ | ⟨c, fuel⟩ := fuel
    · cases hfuel
    · rw [List.forall_mem_cons] at haccepts hread
      rw [List.pairwise_cons] at honce
      have hlater : ∀ next ∈ entries, next.1 ∉ other.1 :: read := by
        intro next hnext
        rw [List.mem_cons, not_or]
        exact ⟨Ne.symm (honce.1 next hnext), hread.2 next hnext⟩
      have hrest := ih haccepts.2 honce.2 hlater (Nat.lt_of_succ_lt_succ hfuel)
      obtain ⟨next, others, hnext⟩ := List.exists_cons_of_ne_nil
        (List.append_ne_nil_of_right_ne_nil entries (List.cons_ne_nil entry later))
      rw [hnext] at hrest
      rw [List.cons_append, hnext, List.map_cons, List.map_cons, joined_cons_cons_append,
        ← List.map_cons, run_readNamed_cons hnames haccepts.1 fun _ => hread.1]
      exact hrest

/-- So is the object that it stands in. -/
theorem run_object_of_foreign (hnames : members.names.Nodup) (hplain : Plain entry.1)
    (hname : entry.1 ∉ members.names) (later : List (String × List Char))
    (haccepts : ∀ other ∈ entries, members.Accepts true values other)
    (honce : entries.Pairwise fun a b => a.1 ≠ b.1) (rest : List Char) :
    (members.format true).read.run
        (Format.writeItems '{' '}' ((entries ++ entry :: later).map writeEntry) ++ rest) =
      .error (.unknownField entry.1 members.names) := by
  obtain ⟨first, others, hfirst⟩ := List.exists_cons_of_ne_nil
    (List.append_ne_nil_of_right_ne_nil entries (List.cons_ne_nil entry later))
  have hcount : entries.length ≤ others.length := by
    have hlength := congrArg List.length hfirst
    rw [List.length_append, List.length_cons, List.length_cons] at hlength
    omega
  have hfuel := Nat.lt_of_le_of_lt hcount (length_lt_length_entries first others '}' rest)
  have hentries := run_readNamed_of_foreign hnames hplain hname later haccepts honce
    (fun _ _ => List.not_mem_nil) hfuel ('}' :: rest)
  rw [known_nil, hfirst] at hentries
  rw [hfirst, writeItems_append]
  change ((peek >>= fun next => _).run ('{' :: _)) = _
  rw [run_bind_of_reads (run_peek rfl), if_pos rfl]
  exact (run_readObject_cons members true first others _).trans (run_bind_of_refuses hentries _)

end Objects

section Arrays

variable {texts : List (List Char)}

/-- Items that spell the values of the members in order. Members behind the last item have their
default. -/
def SpelledInOrder : {ρ σ : Type} → Members ρ σ → ρ → (texts : List (List Char)) → Prop
  | _, _, nil, (), texts => texts = []
  | _, _, cons _ _ default rest, (value, values), [] =>
    default = some value ∧ rest.SpelledInOrder values []
  | _, _, cons _ format _ rest, (value, values), text :: texts =>
    Spells format.read text value ∧ rest.SpelledInOrder values texts

/-- Items as they stand in an array: the first of all has no comma in front. -/
def writeLater (isFirst : Bool) (texts : List (List Char)) : List Char :=
  if isFirst then joined texts else texts.flatMap fun text => ',' :: text

theorem writeLater_cons (isFirst : Bool) (text : List Char) (texts : List (List Char)) :
    writeLater isFirst (text :: texts) =
      (if isFirst then [] else [',']) ++ (text ++ writeLater false texts) := by
  cases isFirst with
  | false => rfl
  | true => exact joined_cons text texts

/-- Items are followed by a comma or by the end of the array. -/
theorem ends_writeLater (texts : List (List Char)) (rest : List Char) :
    Ends (writeLater false texts ++ ']' :: rest) := by
  cases texts with
  | nil => exact ends_cons rfl rfl rest
  | cons text texts => exact ends_cons rfl rfl _

/-- The values of the members are read in order, up to the closing bracket. -/
theorem run_readOrdered (h : members.SpelledInOrder values texts) (isFirst : Bool)
    (rest : List Char) :
    (members.readOrdered isFirst).run (writeLater isFirst texts ++ ']' :: rest) =
      .ok (values, rest) := by
  induction members generalizing texts isFirst with
  | nil =>
    cases h
    cases isFirst <;> exact run_mark rfl
  | cons name format default later ih =>
    obtain ⟨value, values⟩ := values
    cases texts with
    -- the array has ended, and the member takes its default
    | nil =>
      obtain ⟨rfl, hlater⟩ := h
      have hnone : writeLater isFirst [] = [] := by cases isFirst <;> rfl
      have hrest := ih hlater isFirst
      rw [hnone, List.nil_append] at hrest ⊢
      unfold readOrdered
      rw [run_bind_of_reads (run_peek rfl), if_pos rfl]
      dsimp only
      rw [run_bind_of_reads hrest]
      rfl
    | cons text texts =>
      obtain ⟨htext, hlater⟩ := h
      have hvalue := htext.run _ (ends_writeLater texts rest)
      have hrest := ih hlater false
      have hthis : (format.read >>= fun value =>
          later.readOrdered false >>= fun values => pure (value, values)).run
            (text ++ (writeLater false texts ++ ']' :: rest)) = .ok ((value, values), rest) := by
        rw [run_bind_of_reads hvalue, run_bind_of_reads hrest]
        rfl
      unfold readOrdered
      rw [writeLater_cons, List.append_assoc, List.append_assoc]
      cases isFirst with
      | false =>
        rw [if_neg Bool.false_ne_true, List.singleton_append, run_bind_of_reads (run_peek rfl),
          if_neg (by decide), if_pos Bool.not_false]
        exact (run_bind_of_reads (run_mark rfl) _).trans hthis
      | true =>
        obtain ⟨c, body, rfl, hc⟩ := htext.opens
        rw [if_pos rfl, List.nil_append, List.cons_append,
          run_bind_of_reads (run_peek (isBlank_of_opensValue hc)),
          if_neg (Closes.ne_of_opensValue (.inl rfl) hc), if_neg (by decide)]
        exact hthis

/-- An array spells the values of the members in order. -/
theorem spells_array (h : members.SpelledInOrder values texts) :
    Spells (members.format strict).read (Format.writeItems '[' ']' texts) values := by
  refine ⟨⟨_, _, rfl, rfl⟩, fun rest _ => ?_⟩
  rw [writeItems_append]
  change ((peek >>= fun next => _).run ('[' :: _)) = _
  rw [run_bind_of_reads (run_peek rfl), if_neg (by decide), if_pos rfl]
  exact run_readOrdered h true rest

end Arrays

end Members

end SeededGarbling.Json
