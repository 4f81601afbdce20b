import SolDeployer.Notice

/-!
# Laws of operations in a row

An operation after another succeeds only if both do. What is told along
the way plays no part.
-/

namespace SolDeployer

variable {α β : Type}

theorem bind_eq_ok {ε : Type} {first : Except ε α} {next : α → Except ε β} {value : β} :
    first >>= next = .ok value ↔ ∃ a, first = .ok a ∧ next a = .ok value := by
  constructor
  · intro h
    cases first with
    | error e => cases h
    | ok a => exact ⟨a, rfl, h⟩
  · rintro ⟨a, rfl, h⟩
    exact h

theorem bind_eq_error {ε : Type} {first : Except ε α} {next : α → Except ε β} {cause : ε} :
    first >>= next = .error cause ↔
      first = .error cause ∨ ∃ a, first = .ok a ∧ next a = .error cause := by
  cases first with
  | error other =>
      constructor
      · intro h
        exact .inl (by rw [Except.error.inj h])
      · rintro (h | ⟨a, h, -⟩)
        · rw [Except.error.inj h]
          rfl
        · cases h
  | ok a =>
      constructor
      · exact fun h => .inr ⟨a, rfl, h⟩
      · rintro (h | ⟨b, h, hnext⟩)
        · cases h
        · rwa [Except.ok.inj h]

theorem bind_ne_error {ε : Type} {first : Except ε α} {next : α → Except ε β} {cause : ε}
    (hfirst : first ≠ .error cause) (hnext : ∀ a, next a ≠ .error cause) :
    first >>= next ≠ .error cause := by
  intro h
  rcases bind_eq_error.mp h with hfails | ⟨a, -, hfails⟩
  · exact hfirst hfails
  · exact hnext a hfails

theorem map_eq_ok {ε : Type} {first : Except ε α} {f : α → β} {value : β} :
    first.map f = .ok value ↔ ∃ a, first = .ok a ∧ f a = value := by
  cases first with
  | error e => simp [Except.map]
  | ok a => simp [Except.map]

theorem map_eq_error {ε : Type} {first : Except ε α} {f : α → β} {cause : ε} :
    first.map f = .error cause ↔ first = .error cause := by
  cases first with
  | error e => simp [Except.map]
  | ok a => simp [Except.map]

theorem exists_map_eq_ok {ε : Type} {first : Except ε α} {f : α → β} :
    (∃ b, first.map f = .ok b) ↔ ∃ a, first = .ok a := by
  cases first with
  | error e => simp [Except.map]
  | ok a => simp [Except.map]

theorem exists_of_isOk {ε : Type} {result : Except ε α} (h : result.isOk = true) :
    ∃ value, result = .ok value := by
  cases result with
  | ok value => exact ⟨value, rfl⟩
  | error e => cases h

/-- A value that can be seen by running the operation. -/
theorem eq_ok_of_toOption {ε : Type} {result : Except ε α} {a : α}
    (h : result.toOption = some a) : result = .ok a := by
  cases result with
  | ok b => rw [Option.some.inj h]
  | error cause => cases h

theorem exists_of_any {ε : Type} {result : Except ε α} {check : α → Bool}
    (h : result.toOption.any check = true) : ∃ a, result = .ok a ∧ check a = true := by
  cases result with
  | ok a => exact ⟨a, rfl, h⟩
  | error cause => cases h

/-- A failure that can be seen by running the operation. -/
theorem eq_error_of_check {ε : Type} [DecidableEq ε] {result : Except ε α} {e : ε}
    (h : (match result with
      | .ok _ => false
      | .error cause => decide (cause = e)) = true) : result = .error e := by
  cases result with
  | ok a => cases h
  | error cause => rw [of_decide_eq_true h]

/-! ## One operation for each item -/

/-- A list that is made for each item: together they have what belongs to any. -/
theorem mapM_lists {ε : Type} {f : α → Except ε (List β)} {P : α → β → Prop} {items : List α}
    (h : ∀ a ∈ items, ∃ made, f a = .ok made ∧ ∀ b, b ∈ made ↔ P a b) :
    ∃ lists, items.mapM f = .ok lists ∧ ∀ b, b ∈ lists.flatten ↔ ∃ a ∈ items, P a b := by
  induction items with
  | nil => exact ⟨[], rfl, by simp⟩
  | cons a rest ih =>
      obtain ⟨made, hmade, hmem⟩ := h a List.mem_cons_self
      obtain ⟨lists, hlists, hrest⟩ := ih fun b hb => h b (List.mem_cons_of_mem _ hb)
      refine ⟨made :: lists, ?_, fun b => ?_⟩
      · rw [List.mapM_cons, hmade, hlists]
        rfl
      · rw [List.flatten_cons, List.mem_append, hmem, hrest]
        simp

/-- If all that fails on some items fails in one way, and something does, so does the
whole. -/
theorem mapM_eq_error {ε : Type} {f : α → Except ε β} {cause : ε} {items : List α}
    (hcause : ∀ a ∈ items, ∀ other, f a = .error other → other = cause)
    (hfails : ∃ a ∈ items, f a = .error cause) : items.mapM f = .error cause := by
  induction items with
  | nil => simp at hfails
  | cons a rest ih =>
      rw [List.mapM_cons]
      cases ha : f a with
      | error other =>
          rw [hcause a List.mem_cons_self other ha]
          rfl
      | ok made =>
          obtain ⟨b, hb, hfail⟩ := hfails
          have hrest : b ∈ rest := by
            rcases List.mem_cons.mp hb with rfl | hrest
            · rw [ha] at hfail
              cases hfail
            · exact hrest
          rw [ih (fun b hb => hcause b (List.mem_cons_of_mem _ hb)) ⟨b, hrest, hfail⟩]
          rfl

namespace Report

instance : LawfulMonad Report := LawfulMonad.mk' Report
  (fun report => by
    obtain ⟨notices, result⟩ := report
    cases result with
    | error failure => rfl
    | ok value => exact congrArg (Report.mk · (.ok value)) (List.append_nil notices))
  (fun _ _ => rfl)
  (fun first next last => by
    obtain ⟨notices, result⟩ := first
    cases result with
    | error failure => rfl
    | ok value =>
        show Report.bind (Report.bind _ _) _ = Report.bind _ fun a => Report.bind _ _
        simp only [Report.bind]
        cases (next value).result with
        | error failure => rfl
        | ok value => simp only [List.append_assoc])

theorem map_notices (f : α → β) (report : Report α) : (f <$> report).notices = report.notices := by
  rw [map_eq_pure_bind]
  show (Report.bind _ _).notices = _
  unfold Report.bind
  cases report.result with
  | error failure => rfl
  | ok value => exact List.append_nil _

theorem map_result (f : α → β) (report : Report α) :
    (f <$> report).result = report.result.map f := by
  rw [map_eq_pure_bind]
  show (Report.bind _ _).result = _
  unfold Report.bind
  cases report.result <;> rfl

theorem ofExcept_ok_bind (a : α) (next : α → Report β) :
    ofExcept (.ok a) >>= next = next a := rfl

theorem bind_result (first : Report α) (next : α → Report β) :
    (first >>= next).result = first.result >>= fun a => (next a).result := by
  change (Report.bind first next).result = _
  unfold Report.bind
  cases first.result <;> rfl

theorem mem_bind_left {first : Report α} {next : α → Report β} {notice : Notice}
    (h : notice ∈ first.notices) : notice ∈ (first >>= next).notices := by
  change notice ∈ (Report.bind first next).notices
  unfold Report.bind
  cases first.result with
  | error failure => exact h
  | ok a => exact List.mem_append_left _ h

theorem mem_bind_right {first : Report α} {next : α → Report β} {notice : Notice} {a : α}
    (hfirst : first.result = .ok a) (h : notice ∈ (next a).notices) :
    notice ∈ (first >>= next).notices := by
  change notice ∈ (Report.bind first next).notices
  simp only [Report.bind, hfirst]
  exact List.mem_append_right _ h

theorem bind_ok {first : Report α} {next : α → Report β} {value : β} :
    (first >>= next).result = .ok value ↔
      ∃ a, first.result = .ok a ∧ (next a).result = .ok value := by
  rw [bind_result, bind_eq_ok]

end Report

end SolDeployer
