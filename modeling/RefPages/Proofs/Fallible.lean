/-
Computations that may fail with a fault: when a sequence of them succeeds.
-/
import Mathlib.Tactic

namespace RefPages

variable {ε α β : Type}

theorem bind_eq_ok {x : Except ε α} {f : α → Except ε β} {b : β} :
    x >>= f = .ok b ↔ ∃ a, x = .ok a ∧ f a = .ok b := by
  cases x with
  | error e => simp [bind, Except.bind]
  | ok a => simp [bind, Except.bind]

theorem bind_eq_error {x : Except ε α} {f : α → Except ε β} {fault : ε} :
    x >>= f = .error fault ↔ x = .error fault ∨ ∃ a, x = .ok a ∧ f a = .error fault := by
  cases x with
  | error other => simp [bind, Except.bind]
  | ok a => simp [bind, Except.bind]

/-- What is only done to a result does not fail. -/
theorem bind_pure_eq_error {x : Except ε α} {f : α → β} {fault : ε} :
    (x >>= fun a => pure (f a)) = .error fault ↔ x = .error fault := by
  rw [bind_eq_error]
  constructor
  · rintro (h | ⟨a, -, h⟩)
    · exact h
    · cases h
  · exact .inl

theorem map_eq_ok {x : Except ε α} {f : α → β} {b : β} :
    x.map f = .ok b ↔ ∃ a, x = .ok a ∧ f a = b := by
  cases x with
  | error e => simp [Except.map]
  | ok a => simp [Except.map]

theorem map_bind_eq {γ : Type} (x : Except ε α) (f : α → Except ε β) (g : β → γ) :
    (x >>= f).map g = x >>= fun a => (f a).map g := by
  cases x <;> rfl

theorem bind_map_eq {γ : Type} (x : Except ε α) (f : α → β) (g : β → Except ε γ) :
    x.map f >>= g = x >>= fun a => g (f a) := by
  cases x <;> rfl

theorem map_inj {f : α → β} (hf : Function.Injective f) {x y : Except ε α} : x.map f = y.map f ↔ x = y := by
  constructor
  · intro h
    cases x with
    | error fault =>
      cases y with
      | error other =>
        cases h
        rfl
      | ok b => cases h
    | ok a =>
      cases y with
      | error fault => cases h
      | ok b => rw [hf (Except.ok.inj h)]
  · rintro rfl
    rfl

/-- Two ways to process a list give the same in some view when they do so for every element. -/
theorem map_mapM_eq {γ δ ζ : Type} {f : α → Except ε β} {f' : γ → Except ε δ} {before : α → γ} {view : δ → ζ}
    {after : β → ζ} {as : List α} (h : ∀ a ∈ as, (f' (before a)).map view = (f a).map after) :
    ((as.map before).mapM f').map (·.map view) = (as.mapM f).map (·.map after) := by
  induction as with
  | nil => rfl
  | cons a as ih =>
    rw [List.forall_mem_cons] at h
    have hfirst := h.1
    have hrest := ih h.2
    rw [List.map_cons, List.mapM_cons, List.mapM_cons]
    generalize f' (before a) = first', (as.map before).mapM f' = rest', f a = first, as.mapM f = rest at hfirst hrest
    rcases first' with fault' | b' <;> rcases first with fault | b
    · exact congrArg Except.error (Except.error.inj hfirst)
    · cases hfirst
    · cases hfirst
    · rcases rest' with fault' | bs' <;> rcases rest with fault | bs
      · exact congrArg Except.error (Except.error.inj hrest)
      · cases hrest
      · cases hrest
      · exact congrArg Except.ok (congrArg₂ List.cons (Except.ok.inj hfirst) (Except.ok.inj hrest))

/-- What is done to every element before is done to every result after. -/
theorem mapM_map_eq_of_mem {γ δ : Type} {f : α → Except ε β} {f' : γ → Except ε δ} {before : α → γ} {after : β → δ}
    {as : List α} (h : ∀ a ∈ as, f' (before a) = (f a).map after) :
    (as.map before).mapM f' = (as.mapM f).map (·.map after) := by
  have hall : ((as.map before).mapM f').map (·.map id) = (as.mapM f).map (·.map after) :=
    map_mapM_eq fun a ha => by
      rw [Except.map_id]
      exact h a ha
  rw [List.map_id_fun, Except.map_id] at hall
  exact hall

theorem mapM_map_eq {γ δ : Type} {f : α → Except ε β} {f' : γ → Except ε δ} {before : α → γ} {after : β → δ}
    (h : ∀ a, f' (before a) = (f a).map after) (as : List α) :
    (as.map before).mapM f' = (as.mapM f).map (·.map after) := mapM_map_eq_of_mem fun a _ => h a

theorem mapM_eq_ok {f : α → Except ε β} {as : List α} {bs : List β} :
    as.mapM f = .ok bs ↔ List.Forall₂ (fun a b => f a = .ok b) as bs := by
  induction as generalizing bs with
  | nil =>
    rw [List.mapM_nil, List.forall₂_nil_left_iff]
    constructor
    · rintro ⟨⟩
      rfl
    · rintro rfl
      rfl
  | cons a as ih =>
    rw [List.mapM_cons, bind_eq_ok, List.forall₂_cons_left_iff]
    constructor
    · rintro ⟨b, hb, h⟩
      obtain ⟨rest, hrest, h⟩ := bind_eq_ok.1 h
      cases h
      exact ⟨b, rest, hb, ih.1 hrest, rfl⟩
    · rintro ⟨b, rest, hb, hrest, rfl⟩
      exact ⟨b, hb, bind_eq_ok.2 ⟨rest, ih.2 hrest, rfl⟩⟩

theorem mapM_congr {f g : α → Except ε β} {as : List α} (h : ∀ a ∈ as, f a = g a) : as.mapM f = as.mapM g := by
  induction as with
  | nil => rfl
  | cons a as ih =>
    rw [List.mapM_cons, List.mapM_cons, h a List.mem_cons_self, ih fun b hb => h b (List.mem_cons_of_mem _ hb)]

/-- When every element can be processed after a change, with a result that is the same in some view,
then so can the list. -/
theorem mapM_mirrored {γ : Type} {f : α → Except ε β} {change : α → α} {view : β → γ}
    (h : ∀ a b, f a = .ok b → ∃ b', f (change a) = .ok b' ∧ view b' = view b) {as : List α} {bs : List β}
    (hbs : as.mapM f = .ok bs) : ∃ bs', (as.map change).mapM f = .ok bs' ∧ bs'.map view = bs.map view := by
  induction as generalizing bs with
  | nil =>
    cases hbs
    exact ⟨[], rfl, rfl⟩
  | cons a as ih =>
    rw [List.mapM_cons] at hbs
    obtain ⟨b, hb, hbs⟩ := bind_eq_ok.1 hbs
    obtain ⟨rest, hrest, hbs⟩ := bind_eq_ok.1 hbs
    cases hbs
    obtain ⟨b', hb', hview⟩ := h a b hb
    obtain ⟨rest', hrest', hviews⟩ := ih hrest
    refine ⟨b' :: rest', ?_, ?_⟩
    · rw [List.map_cons, List.mapM_cons, hb', hrest']
      rfl
    · rw [List.map_cons, List.map_cons, hview, hviews]

/-- What each result says is what is said about the element that it is made from. -/
theorem map_eq_of_mapM {γ : Type} {f : α → Except ε β} {view : β → γ} {said : α → γ}
    (h : ∀ a b, f a = .ok b → view b = said a) {as : List α} {bs : List β} (hbs : as.mapM f = .ok bs) :
    bs.map view = as.map said := by
  have hrelated := mapM_eq_ok.1 hbs
  clear hbs
  induction hrelated with
  | nil => rfl
  | cons hhead _ ih => rw [List.map_cons, List.map_cons, h _ _ hhead, ih]

theorem related_of_mem_left {R : α → β → Prop} {as : List α} {bs : List β} (h : List.Forall₂ R as bs)
    {a : α} (ha : a ∈ as) : ∃ b ∈ bs, R a b := by
  induction h with
  | nil => cases ha
  | cons hhead _ ih =>
    rcases List.mem_cons.1 ha with rfl | ha
    · exact ⟨_, List.mem_cons_self, hhead⟩
    · obtain ⟨b, hb, hrelated⟩ := ih ha
      exact ⟨b, List.mem_cons_of_mem _ hb, hrelated⟩

theorem related_of_mem_right {R : α → β → Prop} {as : List α} {bs : List β} (h : List.Forall₂ R as bs)
    {b : β} (hb : b ∈ bs) : ∃ a ∈ as, R a b :=
  related_of_mem_left h.flip hb

theorem related_of_getElem? {R : α → β → Prop} {as : List α} {bs : List β} (h : List.Forall₂ R as bs) {position : Nat}
    {b : β} (hb : bs[position]? = some b) : ∃ a, as[position]? = some a ∧ R a b := by
  induction h generalizing position with
  | nil => cases hb
  | cons hfirst _ ih =>
    cases position with
    | zero =>
      cases hb
      exact ⟨_, rfl, hfirst⟩
    | succ position => exact ih hb

theorem related_of_getLast? {R : α → β → Prop} {as : List α} {bs : List β} (h : List.Forall₂ R as bs) {b : β}
    (hb : bs.getLast? = some b) : ∃ a, as.getLast? = some a ∧ R a b := by
  rw [List.getLast?_eq_getElem?] at hb
  rw [List.getLast?_eq_getElem?, h.length_eq]
  exact related_of_getElem? h hb

/-- An element may be replaced by another that is related as well. -/
theorem related_set {R : α → β → Prop} {as : List α} {bs : List β} (h : List.Forall₂ R as bs) {position : Nat} {a : α}
    {b : β} (ha : as[position]? = some a) (hab : R a b) : List.Forall₂ R as (bs.set position b) := by
  induction h generalizing position with
  | nil => cases ha
  | cons hfirst hrest ih =>
    cases position with
    | zero =>
      cases ha
      exact .cons hab hrest
    | succ position => exact .cons hfirst (ih ha)

theorem error_of_mapM {f : α → Except ε β} {as : List α} {fault : ε} (h : as.mapM f = .error fault) :
    ∃ a ∈ as, f a = .error fault := by
  induction as with
  | nil => cases h
  | cons a as ih =>
    rw [List.mapM_cons] at h
    cases hfirst : f a with
    | error first =>
      rw [hfirst] at h
      cases h
      exact ⟨a, List.mem_cons_self, hfirst⟩
    | ok b =>
      rw [hfirst] at h
      cases hrest : as.mapM f with
      | error rest =>
        rw [hrest] at h
        cases h
        obtain ⟨a', ha', hfault⟩ := ih hrest
        exact ⟨a', List.mem_cons_of_mem _ ha', hfault⟩
      | ok bs =>
        rw [hrest] at h
        cases h

theorem mapM_error_of_mem {f : α → Except ε β} {as : List α} {a : α} (ha : a ∈ as) {fault : ε}
    (h : f a = .error fault) :
    ∃ first, as.mapM f = .error first := by
  cases hall : as.mapM f with
  | error first => exact ⟨first, rfl⟩
  | ok bs =>
    obtain ⟨b, -, hb⟩ := related_of_mem_left (mapM_eq_ok.1 hall) ha
    rw [h] at hb
    cases hb

/-! ## Faults -/

/-- A computation succeeds, or its fault is of a kind. -/
def FailsOnly (P : ε → Prop) (x : Except ε α) : Prop := ∀ fault, x = .error fault → P fault

section

variable {P : ε → Prop}

theorem FailsOnly.ok (a : α) : FailsOnly P (.ok a) := by
  intro fault h
  cases h

theorem FailsOnly.pure (a : α) : FailsOnly P (pure a : Except ε α) := FailsOnly.ok a

theorem FailsOnly.error {fault : ε} (h : P fault) : FailsOnly P (.error fault : Except ε α) := by
  intro other hother
  cases hother
  exact h

theorem FailsOnly.bind {x : Except ε α} {f : α → Except ε β} (hx : FailsOnly P x)
    (hf : ∀ a, x = .ok a → FailsOnly P (f a)) : FailsOnly P (x >>= f) := by
  intro fault h
  cases hvalue : x with
  | error own =>
    rw [hvalue] at h
    cases h
    exact hx fault hvalue
  | ok a =>
    rw [hvalue] at h
    exact hf a hvalue fault h

theorem FailsOnly.mapM {f : α → Except ε β} {as : List α} (h : ∀ a ∈ as, FailsOnly P (f a)) :
    FailsOnly P (as.mapM f) := by
  induction as with
  | nil => exact FailsOnly.ok []
  | cons a as ih =>
    rw [List.mapM_cons]
    refine (h a List.mem_cons_self).bind fun b _ => ?_
    exact (ih fun a ha => h a (List.mem_cons_of_mem _ ha)).bind fun bs _ => FailsOnly.pure _

end

/-! ## Folds -/

/-- What every step of a fold over the elements of a list keeps holds of its result. -/
theorem foldlM_preserves_of_mem {P : β → Prop} {f : β → α → Except ε β} {as : List α}
    (hstep : ∀ a ∈ as, ∀ b b', P b → f b a = .ok b' → P b') {b b' : β} (hb : P b) (h : as.foldlM f b = .ok b') :
    P b' := by
  induction as generalizing b with
  | nil =>
    cases h
    exact hb
  | cons a as ih =>
    rw [List.forall_mem_cons] at hstep
    rw [List.foldlM_cons] at h
    obtain ⟨next, hnext, h⟩ := bind_eq_ok.1 h
    exact ih hstep.2 (hstep.1 b next hb hnext) h

/-- What every step of a fold keeps holds of its result. -/
theorem foldlM_preserves {P : β → Prop} {f : β → α → Except ε β}
    (hstep : ∀ b a b', P b → f b a = .ok b' → P b') {as : List α} {b b' : β} (hb : P b)
    (h : as.foldlM f b = .ok b') : P b' :=
  foldlM_preserves_of_mem (fun a _ b b' => hstep b a b') hb h

/-- An invariant of a fold that depends on what has been processed. -/
theorem foldlM_processed {P : List α → β → Prop} {f : β → α → Except ε β}
    (hstep : ∀ done b a b', P done b → f b a = .ok b' → P (done ++ [a]) b') {as done : List α}
    {b b' : β} (hb : P done b) (h : as.foldlM f b = .ok b') : P (done ++ as) b' := by
  induction as generalizing done b with
  | nil =>
    cases h
    rwa [List.append_nil]
  | cons a as ih =>
    rw [List.foldlM_cons] at h
    obtain ⟨next, hnext, h⟩ := bind_eq_ok.1 h
    rw [List.append_cons]
    exact ih (hstep done b a next hb hnext) h

end RefPages
