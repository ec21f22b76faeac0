import SeededGarbling.Bytes

/-!
# Traversals that may fail

A traversal of a list stops at the first entry that is refused. These facts say what a success
tells about every entry, and which entry a failure belongs to.
-/

namespace SeededGarbling.Traversal

variable {ε α β : Type}

/-- A sequence succeeds exactly when both of its parts do. -/
theorem bind_eq_ok_iff {x : Except ε α} {f : α → Except ε β} {b : β} :
    (x >>= f) = .ok b ↔ ∃ a, x = .ok a ∧ f a = .ok b := by
  cases x with
  | error e =>
    constructor
    · intro h
      cases h
    · rintro ⟨a, h, _⟩
      cases h
  | ok a =>
    constructor
    · intro h
      exact ⟨a, rfl, h⟩
    · rintro ⟨a', h, hf⟩
      cases h
      exact hf

/-- Renaming failures leaves successes alone. -/
theorem mapError_eq_ok_iff {δ : Type} {x : Except ε α} {rename : ε → δ} {a : α} :
    x.mapError rename = .ok a ↔ x = .ok a := by
  cases x with
  | error e =>
    constructor
    · intro h
      cases h
    · intro h
      cases h
  | ok a' =>
    change (Except.ok a' : Except δ α) = .ok a ↔ _
    rw [Except.ok.injEq, Except.ok.injEq]

/-- Where no entry is refused, the list is traversed to its end. -/
theorem exists_mapM_eq_ok {f : α → Except ε β} {xs : List α}
    (h : ∀ x ∈ xs, ∃ y, f x = .ok y) : ∃ ys, xs.mapM f = .ok ys := by
  induction xs with
  | nil => exact ⟨[], rfl⟩
  | cons x xs ih =>
    obtain ⟨y, hy⟩ := h x (List.mem_cons_self ..)
    obtain ⟨ys, hys⟩ := ih fun z hz => h z (List.mem_cons_of_mem x hz)
    exact ⟨y :: ys, by rw [List.mapM_cons, hy, hys]; rfl⟩

private theorem mapM_cons_eq_ok {f : α → Except ε β} {x : α} {xs : List α} {ys : List β}
    (h : (x :: xs).mapM f = .ok ys) :
    ∃ y rest, f x = .ok y ∧ xs.mapM f = .ok rest ∧ ys = y :: rest := by
  rw [List.mapM_cons] at h
  obtain ⟨y, hy, h⟩ := bind_eq_ok_iff.mp h
  obtain ⟨rest, hrest, h⟩ := bind_eq_ok_iff.mp h
  cases h
  exact ⟨y, rest, hy, hrest, rfl⟩

/-- A traversal without effects is a map. -/
theorem mapM_eq_pure_map {m : Type → Type} [Monad m] [LawfulMonad m] {f : α → m β} {g : α → β}
    {xs : List α} (h : ∀ x ∈ xs, f x = pure (g x)) : xs.mapM f = pure (xs.map g) := by
  induction xs with
  | nil => rfl
  | cons x xs ih =>
    rw [List.mapM_cons, h x (List.mem_cons_self ..), pure_bind,
      ih fun y hy => h y (List.mem_cons_of_mem x hy), pure_bind, List.map_cons]

/-- A traversal yields one result per entry. -/
theorem length_of_mapM {f : α → Except ε β} {xs : List α} {ys : List β}
    (h : xs.mapM f = .ok ys) : ys.length = xs.length := by
  induction xs generalizing ys with
  | nil =>
    cases h
    rfl
  | cons x xs ih =>
    obtain ⟨y, rest, _, hrest, rfl⟩ := mapM_cons_eq_ok h
    rw [List.length_cons, List.length_cons, ih hrest]

/-- The result at a position is that of the entry there. -/
theorem getElem?_of_mapM {f : α → Except ε β} {xs : List α} {ys : List β}
    (h : xs.mapM f = .ok ys) {i : Nat} {x : α} (hx : xs[i]? = some x) :
    ∃ y, ys[i]? = some y ∧ f x = .ok y := by
  induction xs generalizing ys i with
  | nil => simp at hx
  | cons z xs ih =>
    obtain ⟨y, rest, hy, hrest, rfl⟩ := mapM_cons_eq_ok h
    cases i with
    | zero =>
      rw [List.getElem?_cons_zero, Option.some.injEq] at hx
      subst hx
      exact ⟨y, rfl, hy⟩
    | succ i =>
      rw [List.getElem?_cons_succ] at hx ⊢
      exact ih hrest hx

/-- What holds of everything that the entries lead to holds of all results. -/
theorem forall_mem_of_mapM {f : α → Except ε β} {xs : List α} {ys : List β} {P : β → Prop}
    (h : xs.mapM f = .ok ys) (hP : ∀ x ∈ xs, ∀ y, f x = .ok y → P y) : ∀ y ∈ ys, P y := by
  induction xs generalizing ys with
  | nil =>
    cases h
    exact fun y hy => absurd hy List.not_mem_nil
  | cons x xs ih =>
    obtain ⟨y, rest, hy, hrest, rfl⟩ := mapM_cons_eq_ok h
    rw [List.forall_mem_cons]
    exact ⟨hP x (List.mem_cons_self ..) y hy,
      ih hrest fun z hz => hP z (List.mem_cons_of_mem x hz)⟩

/-- A traversal for its effect succeeds exactly when no entry is refused. -/
theorem forM_eq_ok_iff {f : α → Except ε Unit} {xs : List α} :
    xs.forM f = .ok () ↔ ∀ x ∈ xs, f x = .ok () := by
  induction xs with
  | nil => exact ⟨fun _ x hx => absurd hx List.not_mem_nil, fun _ => rfl⟩
  | cons x xs ih =>
    change (f x >>= fun _ => xs.forM f) = _ ↔ _
    rw [bind_eq_ok_iff, List.forall_mem_cons, ← ih]
    constructor
    · rintro ⟨⟨⟩, hx, hxs⟩
      exact ⟨hx, hxs⟩
    · rintro ⟨hx, hxs⟩
      exact ⟨⟨⟩, hx, hxs⟩

/-- A sequence fails with the cause of its first part, or of its second where there is one. -/
theorem bind_eq_error_iff {x : Except ε α} {f : α → Except ε β} {e : ε} :
    (x >>= f) = .error e ↔ x = .error e ∨ ∃ a, x = .ok a ∧ f a = .error e := by
  cases x with
  | error cause =>
    constructor
    · intro h
      cases h
      exact Or.inl rfl
    · rintro (h | ⟨a, h, _⟩)
      · cases h
        rfl
      · cases h
  | ok a =>
    constructor
    · intro h
      exact Or.inr ⟨a, rfl, h⟩
    · rintro (h | ⟨a', h, hf⟩)
      · cases h
      · cases h
        exact hf

/-- The failure of a traversal is that of the first entry that is refused. -/
theorem forM_eq_error_iff {f : α → Except ε Unit} {xs : List α} {e : ε} :
    xs.forM f = .error e ↔ ∃ before x after, xs = before ++ x :: after ∧
      (∀ y ∈ before, f y = .ok ()) ∧ f x = .error e := by
  induction xs with
  | nil =>
    constructor
    · intro h
      cases h
    · rintro ⟨before, x, after, h, _⟩
      cases before <;> cases h
  | cons y xs ih =>
    change (f y >>= fun _ => xs.forM f) = _ ↔ _
    rw [bind_eq_error_iff, ih]
    constructor
    · rintro (hy | ⟨⟨⟩, hy, before, x, after, rfl, hbefore, hx⟩)
      · exact ⟨[], y, xs, rfl, fun z hz => absurd hz List.not_mem_nil, hy⟩
      · exact ⟨y :: before, x, after, rfl, List.forall_mem_cons.mpr ⟨hy, hbefore⟩, hx⟩
    · rintro ⟨before, x, after, hsplit, hbefore, hx⟩
      cases before with
      | nil =>
        cases hsplit
        exact Or.inl hx
      | cons z before =>
        cases hsplit
        obtain ⟨hy, hrest⟩ := List.forall_mem_cons.mp hbefore
        exact Or.inr ⟨(), hy, before, x, after, rfl, hrest, hx⟩

/-- A fold fails where it comes to an entry that is refused behind those before it. -/
theorem foldlM_eq_error_iff {f : β → α → Except ε β} {xs : List α} {s : β} {e : ε} :
    xs.foldlM f s = .error e ↔ ∃ before x after s', xs = before ++ x :: after ∧
      before.foldlM f s = .ok s' ∧ f s' x = .error e := by
  induction xs generalizing s with
  | nil =>
    constructor
    · intro h
      cases h
    · rintro ⟨before, x, after, _, h, _⟩
      cases before <;> cases h
  | cons y xs ih =>
    rw [List.foldlM_cons, bind_eq_error_iff]
    constructor
    · rintro (hy | ⟨next, hnext, h⟩)
      · exact ⟨[], y, xs, s, rfl, rfl, hy⟩
      · obtain ⟨before, x, after, s', rfl, hbefore, hx⟩ := ih.mp h
        refine ⟨y :: before, x, after, s', rfl, ?_, hx⟩
        rw [List.foldlM_cons]
        exact bind_eq_ok_iff.mpr ⟨next, hnext, hbefore⟩
    · rintro ⟨before, x, after, s', hsplit, hbefore, hx⟩
      cases before with
      | nil =>
        cases hsplit
        cases hbefore
        exact Or.inl hx
      | cons z before =>
        cases hsplit
        rw [List.foldlM_cons] at hbefore
        obtain ⟨next, hnext, hrest⟩ := bind_eq_ok_iff.mp hbefore
        exact Or.inr ⟨next, hnext, ih.mpr ⟨before, x, after, s', rfl, hrest, hx⟩⟩

/-- A fold goes through exactly where every entry is accepted behind those before it. -/
theorem exists_foldlM_eq_ok_iff {f : β → α → Except ε β} {xs : List α} {s : β}
    {P : List α → α → Prop}
    (h : ∀ before x after s', xs = before ++ x :: after → before.foldlM f s = .ok s' →
      ((∃ next, f s' x = .ok next) ↔ P before x)) :
    (∃ s', xs.foldlM f s = .ok s') ↔
      ∀ before x after, xs = before ++ x :: after → P before x := by
  constructor
  · rintro ⟨s', hs'⟩ before x after rfl
    rw [List.foldlM_append] at hs'
    obtain ⟨reached, hreached, hrest⟩ := bind_eq_ok_iff.mp hs'
    rw [List.foldlM_cons] at hrest
    obtain ⟨next, hnext, _⟩ := bind_eq_ok_iff.mp hrest
    exact (h before x after reached rfl hreached).mp ⟨next, hnext⟩
  · intro hall
    cases hrun : xs.foldlM f s with
    | ok s' => exact ⟨s', rfl⟩
    | error e =>
      obtain ⟨before, x, after, s', hsplit, hbefore, hx⟩ := foldlM_eq_error_iff.mp hrun
      obtain ⟨next, hnext⟩ :=
        (h before x after s' hsplit hbefore).mpr (hall before x after hsplit)
      rw [hnext] at hx
      cases hx

end SeededGarbling.Traversal
