/-
What a heading says before anything is done with it: a class, a member of a class, or an argument
of a method. Reading a heading into the drafts is reading it and then changing the drafts, and
reading several documents is reading their headings one after another.
-/
import RefPages.Api.Read
import RefPages.Proofs.Fallible

namespace RefPages

open Markup Text

/-! ## Headings -/

/-- What a heading of the first level says: a class, or more about one. -/
structure ClassDoc where
  name : String
  metadata : Metadata
  docs : List Node

/-- What a heading of the second level says: a member and the class it is to be added to. -/
structure MemberDoc where
  className : String
  member : Member

/-- What a heading of the third level says: an argument, or an option, and the method it is to be
added to. -/
structure ArgumentDoc where
  heading : String
  className : String
  method : String
  isOption : Bool
  arg : Member

namespace ClassDoc

/-- What a heading of the first level with this content says. -/
def read (heading : String) (content : List Node) : Except Fault ClassDoc :=
  let cs := heading.toList
  match (after? "class: ".toList cs).orElse fun _ => after? "interface: ".toList cs with
  | none => .error (.invalidHeading heading)
  | some name => do
    let metadata ← Metadata.read content
    return ⟨String.ofList (trim name), metadata, Metadata.others content⟩

/-- The class as it is when the heading is the first to declare it. -/
def toClass (doc : ClassDoc) : ApiClass :=
  { ApiClass.ofMembers doc.name doc.metadata.superclass [] with
    since := doc.metadata.since
    langs := doc.metadata.langs
    experimental := doc.metadata.experimental
    docs := doc.docs }

/-- The drafts with what the heading says. -/
def addTo (doc : ClassDoc) (drafts : Drafts) : Except Fault Drafts :=
  if drafts.any (·.name = doc.name) then
    changeFirst (·.name = doc.name) (fun cls => .ok { cls with docs := cls.docs ++ doc.docs }) drafts
  else .ok (drafts ++ [doc.toClass])

end ClassDoc

namespace MemberDoc

/-- What a heading of the second level with this content says. -/
def read (heading : String) (content : List Node) : Except Fault MemberDoc := do
  let some (words, qualified) := splitOnce? [':', ' '] heading.toList
    | .error (.invalidHeading heading)
  let some (kind, isAsync, required) := memberKind? (String.ofList words)
    | .error (.invalidHeading heading)
  let some (className, name) := splitOnce? ['.'] (trim qualified)
    | .error (.invalidHeading heading)
  let metadata ← Metadata.read content
  let (line, docs) := takeFirst (isMemberType kind) (Metadata.others content)
  let type ← readMemberType kind (String.ofList qualified) line
  let member := (Member.ofName kind (String.ofList name) type).withDocs docs
  return ⟨String.ofList className, metadata.describe { member with isAsync, required }⟩

/-- The drafts with what the heading says. -/
def addTo (doc : MemberDoc) (heading : String) (drafts : Drafts) : Except Fault Drafts :=
  drafts.change doc.className heading fun cls =>
    .ok { cls with members := cls.members ++ [doc.member] }

end MemberDoc

namespace ArgumentDoc

/-- What a heading of the third level with this content says. -/
def read (heading : String) (content : List Node) : Except Fault ArgumentDoc := do
  let some (words, qualified) := splitOnce? [':', ' '] heading.toList
    | .error (.invalidHeading heading)
  let some isOption := isOption? (String.ofList words)
    | .error (.invalidHeading heading)
  let some (className, method) := splitMethod? (trim qualified)
    | .error (.invalidHeading heading)
  let metadata ← Metadata.read content
  let (some line, docs) := takeFirst isTypeLine (Metadata.others content)
    | .error (.invalidArgument heading)
  let arg ← readProperty line
  return ⟨heading, className, method, isOption, metadata.describe (arg.withDocs (arg.docs ++ docs))⟩

/-- The arguments with what the heading says. -/
def addToArgs (doc : ArgumentDoc) (args : List Member) : Except Fault (List Member) :=
  if doc.isOption then addOption { doc.arg with required := false } args
  else addParam doc.arg doc.heading args

/-- The method with what the heading says. -/
def addToMethod (doc : ArgumentDoc) (method : Member) : Except Fault Member := do
  return { method with args := ← doc.addToArgs method.args }

/-- The drafts with what the heading says. -/
def addTo (doc : ArgumentDoc) (drafts : Drafts) : Except Fault Drafts :=
  drafts.change doc.className doc.heading fun cls =>
    if cls.members.any (·.name = doc.method) then do
      return { cls with members := ← changeLast (·.name = doc.method) doc.addToMethod cls.members }
    else .error (.undefinedMember (Member.qualify doc.className doc.method))

end ArgumentDoc

/-! ## Reading is reading, then adding -/

theorem Drafts.readClass_eq (drafts : Drafts) (heading : String) (content : List Node) :
    drafts.readClass heading content = (do (← ClassDoc.read heading content).addTo drafts) := by
  unfold Drafts.readClass ClassDoc.read
  dsimp only
  cases (after? "class: ".toList heading.toList).orElse
      fun _ => after? "interface: ".toList heading.toList with
  | none => rfl
  | some name =>
    simp only [bind_assoc, pure_bind]
    rfl

theorem Drafts.readMember_eq (drafts : Drafts) (heading : String) (content : List Node) :
    drafts.readMember heading content =
      (do (← MemberDoc.read heading content).addTo heading drafts) := by
  unfold Drafts.readMember MemberDoc.read
  rcases splitOnce? [':', ' '] heading.toList with _ | ⟨words, qualified⟩
  · rfl
  · dsimp only
    rcases memberKind? (String.ofList words) with _ | ⟨kind, isAsync, required⟩
    · rfl
    · dsimp only
      rcases splitOnce? ['.'] (trim qualified) with _ | ⟨className, name⟩
      · rfl
      · simp only [bind_assoc, pure_bind]
        rfl

theorem Drafts.readArgument_eq (drafts : Drafts) (heading : String) (content : List Node) :
    drafts.readArgument heading content = (do (← ArgumentDoc.read heading content).addTo drafts) := by
  unfold Drafts.readArgument ArgumentDoc.read
  rcases splitOnce? [':', ' '] heading.toList with _ | ⟨words, qualified⟩
  · rfl
  · dsimp only
    rcases isOption? (String.ofList words) with _ | isOption
    · rfl
    · dsimp only
      rcases splitMethod? (trim qualified) with _ | ⟨className, method⟩
      · rfl
      · simp only [bind_assoc]
        refine bind_congr fun metadata => ?_
        rcases takeFirst isTypeLine (Metadata.others content) with ⟨_ | line, docs⟩
        · rfl
        · simp only [bind_assoc, pure_bind]
          refine bind_congr fun arg => ?_
          cases isOption <;> rfl

/-! ## What is read -/

/-- What a line below a list of languages says neither changes the list nor gives other forms. -/
theorem LangRules.kept_of_addDetail {rules rules' : LangRules} {text : String}
    (h : rules.addDetail text = .ok rules') : rules'.only = rules.only ∧ rules'.overrides = rules.overrides := by
  unfold LangRules.addDetail at h
  dsimp only at h
  split at h
  · obtain ⟨parts, -, h⟩ := bind_eq_ok.1 h
    obtain ⟨lang, -, h⟩ := bind_eq_ok.1 h
    cases h
    exact ⟨rfl, rfl⟩
  · split at h
    · obtain ⟨parts, -, h⟩ := bind_eq_ok.1 h
      obtain ⟨line, -, h⟩ := bind_eq_ok.1 h
      obtain ⟨lang, -, h⟩ := bind_eq_ok.1 h
      obtain ⟨type, -, h⟩ := bind_eq_ok.1 h
      cases h
      exact ⟨rfl, rfl⟩
    · cases h
      exact ⟨rfl, rfl⟩

/-- What holds of the rules of any list of languages, and of rules with one more line below the list, holds of the
rules that bullets give. -/
theorem Metadata.langs_of_read {P : LangRules → Prop}
    (hlist : ∀ only, only ≠ some [] → P { LangRules.everywhere with only })
    (hdetail : ∀ rules text rules', P rules → rules.addDetail text = .ok rules' → P rules') {nodes : List Node}
    {metadata : Metadata} (h : Metadata.read nodes = .ok metadata) : P metadata.langs := by
  refine foldlM_preserves (P := fun metadata => P metadata.langs) ?_ (hlist none nofun) h
  intro before bullet after hbefore hadd
  unfold Metadata.add at hadd
  split at hadd
  · cases hadd
    exact hbefore
  · cases hadd
    exact hbefore
  · obtain ⟨rules, hrules, hadd⟩ := bind_eq_ok.1 hadd
    cases hadd
    obtain ⟨langs, -, hrules⟩ := bind_eq_ok.1 hrules
    refine foldlM_preserves hdetail (hlist _ ?_) hrules
    by_cases hlangs : langs = []
    · simp [hlangs]
    · simp [hlangs]
  · cases hadd
    exact hbefore
  · cases hadd
    exact hbefore

/-- Bullets never give an argument for one language; only another heading does. -/
theorem Metadata.overrides_of_read {nodes : List Node} {metadata : Metadata}
    (h : Metadata.read nodes = .ok metadata) : metadata.langs.overrides = .empty :=
  langs_of_read (fun _ _ => rfl)
    (fun _ _ _ hrules hadd => (LangRules.kept_of_addDetail hadd).2.trans hrules) h

theorem ArgumentDoc.overrides_of_read {heading : String} {content : List Node} {doc : ArgumentDoc}
    (h : ArgumentDoc.read heading content = .ok doc) : doc.arg.langs.overrides = .empty := by
  unfold ArgumentDoc.read at h
  split at h
  · split at h
    · split at h
      · obtain ⟨metadata, hmetadata, h⟩ := bind_eq_ok.1 h
        split at h
        · obtain ⟨arg, -, h⟩ := bind_eq_ok.1 h
          cases h
          exact Metadata.overrides_of_read hmetadata
        · cases h
      · cases h
    · cases h
  · cases h

/-- A member begins without arguments. -/
theorem MemberDoc.args_eq_nil {heading : String} {content : List Node} {doc : MemberDoc}
    (h : MemberDoc.read heading content = .ok doc) : doc.member.args = [] := by
  unfold MemberDoc.read at h
  split at h
  · split at h
    · split at h
      · obtain ⟨metadata, -, h⟩ := bind_eq_ok.1 h
        obtain ⟨type, -, h⟩ := bind_eq_ok.1 h
        cases h
        rfl
      · cases h
    · cases h
  · cases h

end RefPages
