/-
Editions of models with comments blacked out: they have the same links, and the same pages.
-/
import RefPages.Page.Finish
import RefPages.Proofs.Api.Redact
import RefPages.Proofs.Page.Recomment

namespace RefPages

open Markup

/-- What is blacked out for the language is not shown. -/
theorem Page.showsSame_redactAll (dialect : Dialect) (docs : List Node) :
    ShowsSame dialect (redactAll dialect.lang) docs := by
  unfold ShowsSame shownDocs
  rw [forLang_redactAll]

namespace Edition

/-! ## Links -/

section

variable {change : List Node → List Node}

/-- Links do not depend on the comments in the model. -/
theorem linksBetween_recomment (dialect : Dialect) (model : Model) (extension : String) :
    linksBetween dialect (model.recomment change) extension = linksBetween dialect model extension := by
  funext target
  cases target with
  | toMember member =>
    have hplace : memberPlace? (model.recomment change) extension member = memberPlace? model extension member := by
      unfold memberPlace?
      dsimp only
      rw [Model.class?_recomment, Option.map_map]
      rfl
    exact congrArg (Option.map (dialect.memberLink member)) hplace
  | _ => rfl

/-- Links do not depend on the comments of what they are to. -/
theorem ignores_linksBetween (dialect : Dialect) (model : Model) (extension : String) :
    (linksBetween dialect model extension).Ignores change := by
  constructor
  · intro cls
    rfl
  · intro member
    have hplace : memberPlace? model extension (member.recomment change) = memberPlace? model extension member := by
      unfold memberPlace? Page.anchor Member.isEvent
      rw [Member.recomment_inheritedFrom, Member.recomment_className, Member.recomment_kind, Member.recomment_name]
    have hlink : dialect.memberLink (member.recomment change) = dialect.memberLink member :=
      funext (dialect.memberLink_recomment member)
    show (memberPlace? model extension (member.recomment change)).map (dialect.memberLink (member.recomment change)) = _
    rw [hplace, hlink]
    rfl

/-- Links begin with a bracket, or with a backtick. -/
theorem marked_linksBetween (dialect : Dialect) (model : Model) (extension : String) :
    (linksBetween dialect model extension).Marked := by
  have hbracket : ∀ text : String, Marked ("[" ++ text).toList := by
    intro text
    rw [String.toList_append]
    exact .inl rfl
  have htick : ∀ text : String, Marked ("\x60" ++ text).toList := by
    intro text
    rw [String.toList_append]
    exact .inr rfl
  intro target text htext
  cases target with
  | toClass cls =>
    cases htext
    rw [Dialect.classLink, bracketed, String.append_assoc]
    exact hbracket _
  | toMember member =>
    obtain ⟨place, -, rfl⟩ := Option.map_eq_some_iff.1 htext
    unfold Dialect.memberLink
    dsimp only
    rw [String.append_assoc, String.append_assoc, String.append_assoc]
    exact hbracket _
  | toParam label =>
    cases htext
    rw [Dialect.paramLink, String.append_assoc]
    exact htick _
  | toOption label =>
    cases htext
    rw [Dialect.optionLink, String.append_assoc]
    exact htick _

/-! ## The edition -/

theorem classDefinitions_recomment (edition : Edition) :
    (edition.recomment change).classDefinitions = edition.classDefinitions := by
  have hlabels : (edition.recomment change).model.classes.map (·.label) = edition.model.classes.map (·.label) := by
    show (edition.model.classes.map (ApiClass.recomment change)).map (·.label) = _
    rw [List.map_map]
    rfl
  have hfind : ∀ label : String,
      ((edition.recomment change).model.classes.find? (·.label = label)).map (classDefinition edition.extension) =
        (edition.model.classes.find? (·.label = label)).map (classDefinition edition.extension) := by
    intro label
    show ((edition.model.classes.map (ApiClass.recomment change)).find? (·.label = label)).map _ = _
    rw [List.find?_map, Option.map_map]
    rfl
  unfold classDefinitions
  dsimp only
  rw [hlabels]
  exact congrArg (List.filterMap · _) (funext hfind)

/-- The page of a guide depends on the names in the model only. -/
theorem guidePage_recomment {edition : Edition} (hlinks : edition.links.Ignores change) (path : String)
    (nodes : List Node) : (edition.recomment change).guidePage path nodes = edition.guidePage path nodes := by
  have htable : LinkTable.ofModel edition.links (edition.model.recomment change) =
      LinkTable.ofModel edition.links edition.model :=
    LinkTable.ofModel_recomment hlinks edition.model
  unfold guidePage Model.resolveDocument
  show (resolveNodes edition.links (.ofModel edition.links (edition.model.recomment change)) none _).mapError _ = _
  rw [htable]
  rfl

/-- What links between pages are in an edition that was made from a model. -/
theorem links_ofModel {lang : Lang} {extension : String} {model : Model} {edition : Edition}
    (h : ofModel lang extension model = .ok edition) :
    edition.dialect.lang = lang ∧ edition.links = linksBetween edition.dialect model extension := by
  obtain ⟨resolved, -, h⟩ := bind_eq_ok.1 h
  cases h
  exact ⟨rfl, rfl⟩

end

section

variable {lang : Lang}

/-- The edition with all comments blacked out for a language. -/
def redact (lang : Lang) : Edition → Edition := recomment (redactAll lang)

/-- When the references of a model can be resolved, those outside of what is blacked out can, and the
editions are the same but for what is blacked out. -/
theorem ofModel_redact {extension : String} {model : Model} {edition : Edition}
    (h : ofModel lang extension model = .ok edition) :
    ∃ kept, ofModel lang extension (model.redact lang) = .ok kept ∧ kept.redact lang = edition.redact lang := by
  have hnames : (model.redact lang).classes.map (·.name) = model.classes.map (·.name) := by
    show (model.classes.map (ApiClass.redact lang)).map (·.name) = _
    rw [List.map_map]
    rfl
  have hlinks : ∀ dialect, linksBetween dialect (model.redact lang) extension = linksBetween dialect model extension :=
    fun dialect => linksBetween_recomment dialect model extension
  unfold ofModel at h ⊢
  dsimp only at h ⊢
  rw [hnames, hlinks]
  obtain ⟨resolved, hresolved, h⟩ := bind_eq_ok.1 h
  cases h
  obtain ⟨kept, hkept, hsame⟩ :=
    Model.resolveLinks_redact lang (marked_linksBetween _ _ _) (ignores_linksBetween _ _ _) hresolved
  refine ⟨_, bind_eq_ok.2 ⟨kept, hkept, rfl⟩, ?_⟩
  exact congrArg (Edition.mk _ · _ _) hsame

end

end Edition

end RefPages
