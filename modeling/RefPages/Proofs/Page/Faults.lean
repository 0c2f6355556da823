/-
What stops the making of pages. References that lead nowhere are found while an edition is made;
after that, nothing but the text of a type, a guide or a file can be at fault.
-/
import RefPages.Page.ClassPage
import RefPages.Page.Finish
import RefPages.Proofs.Fallible

namespace RefPages

open Markup

/-- The fault of a reference, without the file that it is in. -/
def Fault.OfReference : Fault → Prop
  | .undefinedMember _ | .undefinedParam .. | .unknownLinkKind _ => True
  | _ => False

/-- Any other fault. -/
def Fault.Elsewhere (fault : Fault) : Prop := ¬ fault.OfReference

/-! ## References -/

section

variable (render : LinkRenderer) (table : LinkTable) (context : Option LinkContext)

theorem failsOnly_shownName (names : LinkContext → List (String × String)) (ref : Reference) :
    FailsOnly Fault.OfReference (shownName context names ref) := by
  unfold shownName
  cases context with
  | none => exact .ok _
  | some context =>
    dsimp only
    split
    · exact .ok _
    · exact .error trivial

theorem failsOnly_resolve (ref : Reference) : FailsOnly Fault.OfReference (resolve render table context ref) := by
  have hname : FailsOnly Fault.OfReference (resolveName render table context ref) := by
    unfold resolveName
    dsimp only
    split
    · split
      · exact .ok _
      · exact .error trivial
    · split
      · exact (failsOnly_shownName context _ ref).bind fun _ _ => .pure _
      · split
        · exact (failsOnly_shownName context _ ref).bind fun _ _ => .pure _
        · exact .error trivial
  exact hname.bind fun _ _ => .pure _

theorem failsOnly_tryReplace {α ε : Type} {P : ε → Prop} {replacement : α → Except ε (List Char)}
    (h : ∀ ref, FailsOnly P (replacement ref)) (pieces : List (Piece α)) :
    FailsOnly P (tryReplace replacement pieces) := by
  induction pieces with
  | nil => exact .ok _
  | cons piece pieces ih =>
    cases piece with
    | plain c => exact ih.bind fun _ _ => .pure _
    | reference ref => exact (h ref).bind fun _ _ => ih.bind fun _ _ => .pure _

mutual

theorem failsOnly_tryMapTexts {ε : Type} {P : ε → Prop} {change : String → Except ε String}
    (h : ∀ text, FailsOnly P (change text)) : ∀ node : Node, FailsOnly P (tryMapTexts change node)
  | .heading _ text children =>
    (h text).bind fun _ _ => (failsOnly_tryMapAllTexts h children).bind fun _ _ => .pure _
  | .item _ text children =>
    (h text).bind fun _ _ => (failsOnly_tryMapAllTexts h children).bind fun _ _ => .pure _
  | .note _ text => (h text).bind fun _ _ => .pure _
  | .paragraph text => (h text).bind fun _ _ => .pure _
  | .code .. => .pure _
  | .properties _ => .pure _

theorem failsOnly_tryMapAllTexts {ε : Type} {P : ε → Prop} {change : String → Except ε String}
    (h : ∀ text, FailsOnly P (change text)) : ∀ nodes : List Node, FailsOnly P (tryMapAllTexts change nodes)
  | [] => .pure _
  | node :: nodes =>
    (failsOnly_tryMapTexts h node).bind fun _ _ => (failsOnly_tryMapAllTexts h nodes).bind fun _ _ => .pure _

end

theorem failsOnly_resolveNodes (nodes : List Node) :
    FailsOnly Fault.OfReference (resolveNodes render table context nodes) :=
  failsOnly_tryMapAllTexts (fun text =>
    (failsOnly_tryReplace (failsOnly_resolve render table context) (memberPieces text.toList)).bind
      fun _ _ => .pure _) nodes

theorem failsOnly_resolveDocs (member : Member) :
    FailsOnly Fault.OfReference (resolveDocs render table context member) :=
  (failsOnly_resolveNodes render table context member.docs).bind fun _ _ => .pure _

theorem failsOnly_resolveArg (arg : Member) :
    FailsOnly Fault.OfReference (resolveArg render table context arg) := by
  unfold resolveArg
  refine (failsOnly_resolveDocs render table context arg).bind fun described _ => ?_
  split
  · split
    · exact (FailsOnly.mapM fun property _ => failsOnly_resolveDocs render table context property).bind
        fun _ _ => .pure _
    · exact .pure _
  · exact .pure _

theorem failsOnly_resolveLinks_class (cls : ApiClass) :
    FailsOnly Fault.OfReference (cls.resolveLinks render table) := by
  have hmember : ∀ member : Member, FailsOnly Fault.OfReference (member.resolveLinks render table) := by
    intro member
    refine (failsOnly_resolveDocs render table _ member).bind fun described _ => ?_
    exact (FailsOnly.mapM fun arg _ => failsOnly_resolveArg render table _ arg).bind fun _ _ => .pure _
  refine (failsOnly_resolveNodes render table none cls.docs).bind fun _ _ => ?_
  exact (FailsOnly.mapM fun member _ => hmember member).bind fun _ _ => .pure _

end

/-- An edition of a model is only stopped by references that lead nowhere. -/
theorem Edition.failsOnly_ofModel (lang : Lang) (extension : String) (model : Model) :
    FailsOnly Fault.OfReference (Edition.ofModel lang extension model) := by
  refine FailsOnly.bind ?_ fun _ _ => .pure _
  exact (FailsOnly.mapM fun cls _ => failsOnly_resolveLinks_class _ _ cls).bind fun _ _ => .pure _

/-! ## Types -/

namespace Dialect

variable (dialect : Dialect) (direction : Direction) (member : Member)

theorem failsOnly_typeName (type : ApiType) :
    FailsOnly Fault.Elsewhere (dialect.typeName direction member type) := by
  have hstrict : ∀ names own map plain,
      FailsOnly Fault.Elsewhere (dialect.strictName names own map plain type member) := by
    intro names own map plain
    unfold strictName
    split
    · exact .ok _
    · split
      · exact .ok _
      · split
        · exact .ok _
        · exact .error id
  unfold typeName
  split
  · exact .ok _
  · exact .ok _
  · exact hstrict _ _ _ _
  · exact hstrict _ _ _ _

mutual

/-- The text of a type is never stopped by a reference. -/
theorem failsOnly_typeText : ∀ type : ApiType, FailsOnly Fault.Elsewhere (dialect.typeText direction member type)
  | { union := some union, .. } => by
    rw [typeText]
    exact (failsOnly_keptTexts union).bind fun _ _ => .pure _
  | { union := none, args, returns, templates, .. } => by
    rw [typeText]
    dsimp only
    split
    · exact .ok _
    · split
      · split
        · exact .ok _
        · split
          · rename_i fault harity
            refine .error ?_
            unfold arityFault? at harity
            split at harity
            · split at harity
              · cases harity
                exact id
              · cases harity
            · cases harity
          · split
            · refine (failsOnly_typeTexts? args).bind fun _ _ => ?_
              exact (failsOnly_resultText? returns).bind fun _ _ => .pure _
            · exact (failsOnly_resultText? returns).bind fun _ _ => .pure _
      · refine (failsOnly_typeName dialect direction member _).bind fun _ _ => ?_
        exact (failsOnly_typeTexts? templates).bind fun _ _ => .pure _

theorem failsOnly_resultText? : ∀ type : Option ApiType,
    FailsOnly Fault.Elsewhere (dialect.resultText? direction member type)
  | none => .ok _
  | some type => by
    rw [resultText?]
    split
    · exact (failsOnly_typeText type).bind fun _ _ => .pure _
    · exact .ok _

theorem failsOnly_typeTexts? : ∀ types : Option (List ApiType),
    FailsOnly Fault.Elsewhere (dialect.typeTexts? direction member types)
  | none => .ok _
  | some types => failsOnly_typeTexts types

theorem failsOnly_typeTexts : ∀ types : List ApiType,
    FailsOnly Fault.Elsewhere (dialect.typeTexts direction member types)
  | [] => .ok _
  | type :: types =>
    (failsOnly_typeText type).bind fun _ _ => (failsOnly_typeTexts types).bind fun _ _ => .pure _

theorem failsOnly_keptTexts : ∀ types : List ApiType,
    FailsOnly Fault.Elsewhere (dialect.keptTexts direction member types)
  | [] => .ok _
  | type :: types => by
    rw [keptTexts]
    split
    · exact (failsOnly_typeText type).bind fun _ _ => (failsOnly_keptTexts types).bind fun _ _ => .pure _
    · exact failsOnly_keptTexts types

end

end Dialect

/-! ## List items -/

namespace Page

variable (dialect : Dialect)

theorem failsOnly_inNameOrder {α : Type} {P : Fault → Prop} {named : List (String × Except Fault α)}
    (h : ∀ entry ∈ named, FailsOnly P entry.2) : FailsOnly P (inNameOrder named) :=
  FailsOnly.mapM fun entry hentry => h entry (List.mem_mergeSort.1 hentry)

theorem failsOnly_argumentType (arg : Member) : FailsOnly Fault.Elsewhere (argumentType dialect arg) := by
  unfold argumentType
  split
  · exact (dialect.failsOnly_typeText _ _ _).bind fun _ _ => .pure _
  · exact .ok _

mutual

theorem failsOnly_argumentItem (isOption : Bool) : ∀ arg : Member,
    FailsOnly Fault.Elsewhere (argumentItem dialect isOption arg)
  | { name, type, .. } => by
    rw [argumentItem]
    refine (failsOnly_argumentType dialect _).bind fun _ _ => ?_
    exact (failsOnly_inNameOrder (failsOnly_propertyItems? (name = "options") type)).bind fun _ _ => .pure _

theorem failsOnly_propertyItems? (areOptions : Bool) : ∀ type : Option ApiType,
    ∀ entry ∈ propertyItems? dialect areOptions type, FailsOnly Fault.Elsewhere entry.2
  | none => fun _ hentry => nomatch hentry
  | some { properties, .. } => by
    rw [propertyItems?]
    exact failsOnly_memberItems? areOptions properties

theorem failsOnly_memberItems? (areOptions : Bool) : ∀ members : Option (List Member),
    ∀ entry ∈ memberItems? dialect areOptions members, FailsOnly Fault.Elsewhere entry.2
  | none => fun _ hentry => nomatch hentry
  | some members => by
    rw [memberItems?]
    exact failsOnly_memberItems areOptions members

theorem failsOnly_memberItems (areOptions : Bool) : ∀ members : List Member,
    ∀ entry ∈ memberItems dialect areOptions members, FailsOnly Fault.Elsewhere entry.2
  | [] => fun _ hentry => nomatch hentry
  | arg :: args => by
    rw [memberItems]
    intro entry hentry
    rcases List.mem_cons.1 hentry with rfl | hentry
    · exact failsOnly_argumentItem areOptions arg
    · exact failsOnly_memberItems areOptions args entry hentry

end

theorem failsOnly_valueProperties (type : ApiType) : FailsOnly Fault.Elsewhere (valueProperties dialect type) :=
  failsOnly_inNameOrder (failsOnly_memberItems dialect false _)

theorem failsOnly_resultItem? (method : Member) : FailsOnly Fault.Elsewhere (resultItem? dialect method) := by
  unfold resultItem?
  split
  · split
    · exact .ok _
    · refine (dialect.failsOnly_typeText _ _ _).bind fun _ _ => ?_
      exact (failsOnly_valueProperties dialect _).bind fun _ _ => .pure _
  · exact .ok _

theorem failsOnly_valueItem? (member : Member) : FailsOnly Fault.Elsewhere (valueItem? dialect member) := by
  unfold valueItem?
  split
  · split
    · exact .ok _
    · refine (dialect.failsOnly_typeText _ _ _).bind fun _ _ => ?_
      exact (failsOnly_valueProperties dialect _).bind fun _ _ => .pure _
  · exact .ok _

end Page

/-! ## Pages -/

namespace Edition

variable (edition : Edition)

/-- The page of a class is never stopped by a reference. -/
theorem failsOnly_classPage (cls : ApiClass) : FailsOnly Fault.Elsewhere (edition.classPage cls) := by
  have htypes : ∀ member form, FailsOnly Fault.Elsewhere (edition.typeNodes member form) := by
    intro member form
    unfold typeNodes
    cases member.kind with
    | method =>
      refine (FailsOnly.mapM fun arg _ => Page.failsOnly_argumentItem edition.dialect false arg).bind fun _ _ => ?_
      exact (Page.failsOnly_resultItem? edition.dialect member).bind fun _ _ => .pure _
    | property => exact (Page.failsOnly_valueItem? edition.dialect member).bind fun _ _ => .pure _
    | event => exact (Page.failsOnly_valueItem? edition.dialect member).bind fun _ _ => .pure _
  have hsections : ∀ member, FailsOnly Fault.Elsewhere (edition.memberSections cls.name member) := by
    intro member
    refine FailsOnly.mapM fun entry _ => ?_
    exact (htypes member entry.2).bind fun _ _ => .pure _
  refine FailsOnly.bind (FailsOnly.mapM fun kind _ => ?_) fun _ _ => .pure _
  exact (FailsOnly.mapM fun member _ => hsections member).bind fun _ _ => .pure _

/-- A guide that is at fault says so. -/
theorem failsOnly_guidePage (path : String) (nodes : List Node) :
    FailsOnly Fault.Elsewhere (edition.guidePage path nodes) := by
  intro fault h
  unfold guidePage at h
  dsimp only at h
  revert h
  cases edition.model.resolveDocument edition.links _ with
  | ok page =>
    intro h
    cases h
  | error own =>
    intro h
    cases h
    cases own <;> exact id

end Edition

end RefPages
