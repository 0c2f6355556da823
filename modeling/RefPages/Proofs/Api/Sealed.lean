/-
Texts that take no part in references: links in brackets, names in backticks, and names of classes.
-/
import RefPages.Proofs.Api.Targeted

namespace RefPages

open Text Reference

/-! ## Where brackets and backticks are in a reference -/

theorem Reference.Names.kind_ne_colon {kind name : List Char} (h : Names kind name) : ∀ c ∈ kind, c ≠ ':' := by
  rintro _ hmem rfl
  exact absurd (h.kind_chars _ hmem) (by decide)

theorem Reference.Names.kind_ne_backtick {kind name : List Char} (h : Names kind name) : ∀ c ∈ kind, c ≠ '\x60' := by
  rintro _ hmem rfl
  exact absurd (h.kind_chars _ hmem) (by decide)

theorem append_cons_of_not_mem {α : Type} {as bs before after : List α} {a : α} (h : as ++ bs = before ++ a :: after)
    (hmem : a ∉ as) : ∃ more, before = as ++ more ∧ bs = more ++ a :: after := by
  rcases List.append_eq_append_iff.1 h with ⟨more, rfl, hbs⟩ | ⟨more, rfl, hbefore⟩
  · exact ⟨more, rfl, hbs⟩
  · cases more with
    | nil => exact ⟨[], by simp, hbefore.symm⟩
    | cons b more =>
      obtain ⟨rfl, -⟩ := List.cons.inj hbefore
      exact absurd (by simp) hmem

section

variable {kind name tail before after : List Char}

/-- A bracket in a reference is in its name. -/
theorem after_bracket (hnames : Names kind name) (htail : '[' ∉ tail) (hbefore : before ≠ [])
    (h : Reference.core kind name ++ tail = before ++ '[' :: after) :
    ∃ more, after = more ++ '\x60' :: (']' :: tail) ∧ ∀ c ∈ more, c ≠ ']' ∧ c ≠ '\x60' := by
  obtain ⟨b, before, rfl⟩ := List.exists_cons_of_ne_nil hbefore
  have hkind : '[' ∉ kind := fun hmem => absurd (hnames.kind_chars _ hmem) (by decide)
  rw [core_append, List.cons_append] at h
  obtain ⟨-, hinner⟩ := List.cons.inj h
  have hparts : ('\x60' :: (kind ++ [':', ' '])) ++ (name ++ '\x60' :: (']' :: tail)) = before ++ '[' :: after := by
    rw [← hinner]
    simp
  obtain ⟨more, -, hmore⟩ := append_cons_of_not_mem hparts (by simp [hkind])
  rcases List.append_eq_append_iff.1 hmore with ⟨rest, rfl, hrest⟩ | ⟨rest, rfl, hrest⟩
  · have hmem : '[' ∈ '\x60' :: (']' :: tail) := by
      rw [hrest]
      simp
    simp [htail] at hmem
  · cases rest with
    | nil => cases hrest
    | cons c rest =>
      obtain ⟨rfl, hafter⟩ := List.cons.inj hrest
      refine ⟨rest, hafter, fun c hc => hnames.name_chars c ?_⟩
      simp [hc]

/-- A backtick in a reference is before its kind or after its name. -/
theorem after_backtick (hnames : Names kind name) (htail : '\x60' ∉ tail)
    (h : Reference.core kind name ++ tail = before ++ '\x60' :: after) :
    after = kind ++ ':' :: (' ' :: (name ++ '\x60' :: (']' :: tail))) ∨ after = ']' :: tail := by
  have hkind : '\x60' ∉ kind := fun hmem => hnames.kind_ne_backtick _ hmem rfl
  have hname : '\x60' ∉ name := fun hmem => (hnames.name_chars _ hmem).2 rfl
  rw [core_append] at h
  cases before with
  | nil => cases h
  | cons b before =>
    rw [List.cons_append] at h
    obtain ⟨-, hinner⟩ := List.cons.inj h
    cases before with
    | nil => exact .inl (List.cons.inj hinner).2.symm
    | cons b before =>
      rw [List.cons_append] at hinner
      obtain ⟨-, hafter⟩ := List.cons.inj hinner
      have hparts : (kind ++ ':' :: (' ' :: name)) ++ '\x60' :: (']' :: tail) = before ++ '\x60' :: after := by
        rw [← hafter]
        simp
      obtain ⟨more, -, hmore⟩ := append_cons_of_not_mem hparts (by simp [hkind, hname])
      cases more with
      | nil =>
        obtain ⟨-, hafter⟩ := List.cons.inj hmore
        exact .inr hafter.symm
      | cons c more =>
        obtain ⟨-, hafter⟩ := List.cons.inj hmore
        have hmem : '\x60' ∈ ']' :: tail := by
          rw [hafter]
          simp
        simp [htail] at hmem

end

/-- A reference that goes on after a text has its next character there. -/
theorem core_cases {kind name before after : List Char} (h : Reference.core kind name <+: before ++ after) :
    Reference.core kind name <+: before ∨
      ∃ c more, Reference.core kind name = before ++ c :: more ∧ c :: more <+: after := by
  obtain ⟨rest, hrest⟩ := h
  rcases List.append_eq_append_iff.1 hrest with ⟨more, rfl, -⟩ | ⟨more, hcore, rfl⟩
  · exact .inl (List.prefix_append _ _)
  · cases more with
    | nil =>
      rw [List.append_nil] at hcore
      exact .inl ⟨[], by rw [List.append_nil, hcore]⟩
    | cons c more => exact .inr ⟨c, more, hcore, List.prefix_append _ _⟩

/-- Texts that come to different characters first do not agree. -/
theorem not_prefix_of_first (p : Char → Bool) (a b : Char) (as bs cs ds : List Char) (has : ∀ c ∈ as, p c = true)
    (hbs : ∀ c ∈ bs, p c = true) (ha : p a = false) (hb : p b = false) (hne : a ≠ b) :
    ¬ as ++ a :: cs <+: bs ++ b :: ds := by
  rintro ⟨rest, h⟩
  have hleft := congrArg (List.dropWhile p) h
  rw [List.append_assoc, List.cons_append, List.dropWhile_append_of_pos has, List.dropWhile_append_of_pos hbs,
    List.dropWhile_cons_of_neg (by simp [ha]), List.dropWhile_cons_of_neg (by simp [hb])] at hleft
  exact hne (List.cons.inj hleft).1

/-! ## Names in backticks -/

/-- A name in backticks is sealed if it could be no reference in brackets. -/
theorem sealed_of_backticks {label : List Char} (hlabel : ∀ c ∈ label, c ≠ '\x60' ∧ c ≠ '[' ∧ c ≠ ']' ∧ c ≠ ':') :
    Sealed ('\x60' :: label ++ ['\x60']) := by
  constructor
  · intro part hne hsuffix after
    rw [read?_eq_none_iff]
    intro kind name _ hcore
    cases part with
    | nil => exact hne rfl
    | cons c part =>
      have hc : c = '[' := by
        obtain ⟨more, hmore⟩ := hcore
        exact (List.cons.inj hmore).1.symm
      have hmem := hsuffix.subset (List.mem_cons_self (a := c))
      rw [hc] at hmem
      simp only [List.cons_append, List.mem_cons, List.mem_append] at hmem
      rcases hmem with hmem | hmem | hmem
      · exact absurd hmem (by decide)
      · exact (hlabel _ hmem).2.1 rfl
      · simp at hmem
  · intro before kind name after hbefore hnames hcore
    rw [List.append_assoc] at hcore
    rcases core_cases hcore with hkept | ⟨c, more, hsplit, hmore⟩
    · exact hkept
    · have hc : c = '\x60' := by
        obtain ⟨rest', hrest'⟩ := hmore
        exact (List.cons.inj hrest').1
      subst hc
      rw [← List.append_nil (Reference.core kind name)] at hsplit
      rw [List.cons_append, List.cons_append, List.cons_prefix_cons, List.append_assoc, List.singleton_append] at hmore
      rcases after_backtick hnames (by simp) hsplit with rfl | rfl
      · -- the name in backticks would be the kind and the name of the reference
        have hfirst := not_prefix_of_first (fun c => c ≠ ':' && c ≠ '\x60') ':' '\x60' kind label
          (' ' :: (name ++ ['\x60', ']'])) after
          (fun c hc => ?_) (fun c hc => ?_) (by decide) (by decide) (by decide)
        · exact absurd hmore.2 hfirst
        · simp [hnames.kind_ne_colon c hc, hnames.kind_ne_backtick c hc]
        · simp [(hlabel c hc).1, (hlabel c hc).2.2.2]
      · cases label with
        | nil =>
          obtain ⟨rest', hrest'⟩ := hmore.2
          exact absurd (List.cons.inj hrest').1 (by decide)
        | cons c label =>
          obtain ⟨rest', hrest'⟩ := hmore.2
          exact absurd (List.cons.inj hrest').1.symm (hlabel c List.mem_cons_self).2.2.1

/-! ## What is no part of references -/

/-- The name of a class in brackets is apart from references to members. -/
theorem apart_of_bracket {name : List Char} (hne : name ≠ []) (hname : ∀ c ∈ name, isNameChar c = true) :
    Apart ('[' :: name ++ [']']) := by
  have hchar : ∀ c, isNameChar c = false → c ∉ name := by
    intro c hc hmem
    rw [hname c hmem] at hc
    cases hc
  obtain ⟨d, name, rfl⟩ := List.exists_cons_of_ne_nil hne
  refine ⟨List.cons_ne_nil _ _, ?_, ?_, ?_⟩
  · intro part hpart hsuffix after
    rw [read?_eq_none_iff]
    intro kind own _ hcore
    -- a reference could only begin where the brackets do, and has a backtick next
    rcases List.suffix_cons_iff.1 hsuffix with rfl | hsuffix
    · obtain ⟨more, hmore⟩ := hcore
      have hd := (List.cons.inj (List.cons.inj hmore).2).1
      exact hchar '\x60' (by decide) (by rw [hd]; exact List.mem_cons_self)
    · cases part with
      | nil => exact hpart rfl
      | cons c part =>
        obtain ⟨more, hmore⟩ := hcore
        have hmem := hsuffix.subset (List.mem_cons_self (a := c))
        rw [← (List.cons.inj hmore).1] at hmem
        rcases List.mem_append.1 hmem with hmem | hmem
        · exact hchar '[' (by decide) hmem
        · exact absurd hmem (by decide)
  · intro hmem
    rcases List.mem_append.1 hmem with hmem | hmem
    · rcases List.mem_cons.1 hmem with hmem | hmem
      · exact absurd hmem (by decide)
      · exact hchar ')' (by decide) hmem
    · exact absurd hmem (by decide)
  · intro kind own hnames part hpart hsuffix rest hprefix
    obtain ⟨before, hbefore⟩ := hsuffix
    cases part with
    | nil => exact hpart rfl
    | cons c part =>
      rw [List.cons_append, List.cons_append, List.cons_append, List.cons_prefix_cons] at hprefix
      obtain ⟨rfl, hprefix⟩ := hprefix
      cases before with
      | nil =>
        rw [List.nil_append, core_append] at hbefore
        rw [(List.cons.inj hbefore).2, List.cons_append, List.cons_prefix_cons] at hprefix
        exact hchar '\x60' (by decide) (by rw [← hprefix.1]; exact List.mem_cons_self)
      | cons b before =>
        obtain ⟨inner, rfl, hinner⟩ := after_bracket hnames (by decide) (List.cons_ne_nil b before) hbefore.symm
        have hfirst := not_prefix_of_first (fun c => c ≠ ']' && c ≠ '\x60') ']' '\x60' (d :: name) inner []
          (']' :: '(' :: rest) (fun c hc => ?_) (fun c hc => by simpa using hinner c hc) (by decide) (by decide)
          (by decide)
        · rw [List.append_assoc] at hprefix
          exact hfirst hprefix
        · have hbracket : c ≠ ']' := fun heq => hchar ']' (by decide) (heq ▸ hc)
          have htick : c ≠ '\x60' := fun heq => hchar '\x60' (by decide) (heq ▸ hc)
          simp [hbracket, htick]

/-- A name in backticks is apart from references if it could be neither in nor after one. -/
theorem apart_of_backticks {label : List Char}
    (hlabel : ∀ c ∈ label, c ≠ '\x60' ∧ c ≠ '[' ∧ c ≠ ']' ∧ c ≠ ':') (hclose : ')' ∉ label) :
    Apart ('\x60' :: label ++ ['\x60']) := by
  refine ⟨List.cons_ne_nil _ _, (sealed_of_backticks hlabel).start, by simp [hclose], ?_⟩
  intro kind name hnames part hpart hsuffix rest hprefix
  obtain ⟨before, hbefore⟩ := hsuffix
  cases part with
  | nil => exact hpart rfl
  | cons c part =>
    rw [List.cons_append, List.cons_append, List.cons_prefix_cons] at hprefix
    obtain ⟨rfl, hprefix⟩ := hprefix
    rcases after_backtick hnames (by decide) hbefore.symm with rfl | rfl
    · have hfirst := not_prefix_of_first (fun c => c ≠ ':' && c ≠ '\x60') '\x60' ':' label kind []
        (' ' :: (name ++ '\x60' :: (']' :: ['('])) ++ rest)
        (fun c hc => ?_) (fun c hc => ?_) (by decide) (by decide) (by decide)
      · rw [List.append_assoc] at hprefix
        exact hfirst hprefix
      · simp [(hlabel c hc).1, (hlabel c hc).2.2.2]
      · simp [hnames.kind_ne_colon c hc, hnames.kind_ne_backtick c hc]
    · cases label with
      | nil =>
        obtain ⟨more, hmore⟩ := hprefix
        exact absurd (List.cons.inj hmore).1 (by decide)
      | cons c label =>
        obtain ⟨more, hmore⟩ := hprefix
        exact (hlabel c List.mem_cons_self).2.2.1 (List.cons.inj hmore).1

end RefPages
