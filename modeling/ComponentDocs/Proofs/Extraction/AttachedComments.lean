import Mathlib.Data.List.Find
import ComponentDocs.Proofs.Extraction.DefaultValues
import ComponentDocs.Proofs.Source.BodyLines

/-!
# Which comment documents a member

A member is meant to be documented by a comment that stands above it: behind the member in front of
it, and on a later line than the one where that one ends (`standingClear`).  What counts instead is
the first documentation comment behind the member in front, also if it trails that one on its own
line (`documenting?`).

* `documentation_of_mem_properties`: a listed property takes its description and its documented
  default from that comment alone.  It is the one that is meant if and only if no documentation
  comment between the two members starts on the line where the first of them ends.

The comments between two members stand in the order of their lines, none of them above the line
where the first member ends (`Site.le_line`), so only that line matters.
-/

namespace ComponentDocs

namespace Source

/-- The line where an item ends; of a comment, the line where it starts. -/
def BodyItem.endLine : BodyItem → ℕ
  | .comment _ line => line
  | .property _ _ lastLine => lastLine
  | .other _ lastLine => lastLine

/-- What spans lines behind some items starts where the last of them ends. -/
theorem Spans.of_append {first last : ℕ} {items more : List BodyItem}
    (hspans : Spans first (items ++ more) last) :
    Spans ((items.getLast?.map BodyItem.endLine).getD first) more last := by
  induction items generalizing first with
  | nil => exact hspans
  | cons item rest ih =>
      have hrest : Spans item.endLine (rest ++ more) last := by
        cases hspans with
        | comment _ hrest => exact hrest
        | property hrest => exact hrest
        | other hrest => exact hrest
      rw [List.getLast?_cons, Option.map_some, Option.getD_some]
      cases hlast : rest.getLast? with
      | none => simpa [hlast] using ih hrest
      | some other => simpa [hlast] using ih hrest

/-- Comments that span lines stand in their order. -/
theorem Spans.comments {first last : ℕ} {found : List Comment} {more : List BodyItem}
    (hspans : Spans first (found.map Comment.item ++ more) last) :
    (∀ c ∈ found, first ≤ c.line) ∧ found.Pairwise (·.line ≤ ·.line) := by
  induction found generalizing first with
  | nil => exact ⟨by simp, .nil⟩
  | cons c rest ih =>
      cases hspans with
      | comment hle hrest =>
          obtain ⟨hbound, hsorted⟩ := ih hrest
          exact ⟨List.forall_mem_cons.mpr ⟨hle, fun d hd => hle.trans (hbound d hd)⟩,
            .cons hbound hsorted⟩

end Source

namespace Extraction

open Source Project

/-! ## Sites -/

/-- A property in its place in a body: the member in front of it, and the comments between them. -/
structure Site (body : List BodyItem) (signature : PropertySignature) (previous : Option BodyItem)
    (above : List Comment) : Prop where
  isMember : ∀ item ∈ previous, item.commentText? = none
  stands : ∃ before line lastLine after, before.getLast? = previous ∧
    body = before ++ (above.map Comment.item ++ .property signature line lastLine :: after)

variable {body : List BodyItem} {signature : PropertySignature} {previous : Option BodyItem}
  {above : List Comment}

private theorem exists_comments {items : List BodyItem} {texts : List String}
    (htexts : items.map BodyItem.commentText? = texts.map some) :
    ∃ found : List Comment, items = found.map Comment.item ∧ texts = found.map Comment.text := by
  induction items generalizing texts with
  | nil => exact ⟨[], rfl, by simpa using htexts.symm⟩
  | cons item rest ih =>
      cases texts with
      | nil => cases htexts
      | cons text texts =>
          obtain ⟨htext, hrest⟩ := List.cons.inj htexts
          obtain ⟨found, rfl, rfl⟩ := ih hrest
          cases item with
          | comment other line =>
              cases htext
              exact ⟨⟨text, line⟩ :: found, rfl, rfl⟩
          | property => cases htext
          | other => cases htext

theorem exists_site {comments : List String} (hbelow : StandsBelow comments signature body) :
    ∃ previous above, Site body signature previous above ∧ comments = above.map Comment.text := by
  obtain ⟨before, items, line, lastLine, after, rfl, htexts, hbefore⟩ := hbelow
  obtain ⟨above, rfl, rfl⟩ := exists_comments htexts
  exact ⟨before.getLast?, above, ⟨hbefore, before, line, lastLine, after, rfl, by simp⟩, rfl⟩

/-- The comments above a member stand in the order of their lines, from the line on where the
member in front ends. -/
theorem Site.le_line (hsite : Site body signature previous above) (horder : InLineOrder body) :
    (∀ item ∈ previous, ∀ c ∈ above, item.endLine ≤ c.line) ∧
      above.Pairwise (·.line ≤ ·.line) := by
  obtain ⟨before, line, lastLine, after, rfl, rfl⟩ := hsite.stands
  obtain ⟨first, last, hspans⟩ := horder
  obtain ⟨hbound, hsorted⟩ := hspans.of_append.comments
  refine ⟨fun item hitem => ?_, hsorted⟩
  rwa [Option.mem_def.mp hitem] at hbound

/-! ## The documenting comment -/

/-- A comment is a documentation comment. -/
def isDocumentation (c : Comment) : Bool := DocComment.isDocComment c.text

/-- The comment that documents a member among those above it: the first documentation comment. -/
def documenting? (above : List Comment) : Option Comment := above.find? isDocumentation

/-- The comments that start on a later line than the one where the member in front ends. -/
def standingClear (previous : Option BodyItem) (above : List Comment) : List Comment :=
  above.filter fun c => ∀ item ∈ previous, item.endLine < c.line

theorem docComment?_map_text (above : List Comment) :
    docComment? (above.map Comment.text) =
      (documenting? above).map fun c => DocComment.parse c.text := by
  rw [docComment?, documenting?, List.find?_map, Option.map_map]
  rfl

/-- The comment that documents a member is the one that is meant if and only if no documentation
comment trails the member in front. -/
theorem Site.documenting?_standingClear_iff (hsite : Site body signature previous above)
    (horder : InLineOrder body) :
    documenting? (standingClear previous above) = documenting? above ↔
      ∀ c ∈ above, isDocumentation c → ∀ item ∈ previous, c.line ≠ item.endLine := by
  obtain ⟨hbound, hsorted⟩ := hsite.le_line horder
  constructor
  · intro hmeant c hc hdoc item hitem hline
    have hfound : (documenting? above).isSome := List.find?_isSome.mpr ⟨c, hc, hdoc⟩
    obtain ⟨d, hd⟩ := Option.isSome_iff_exists.mp hfound
    obtain ⟨-, before, after, rfl, hbefore⟩ := List.find?_eq_some_iff_append.mp hd
    -- the first documentation comment starts no later than the one that trails the member
    have hle : d.line ≤ c.line := by
      obtain hc | rfl | hc := by simpa using hc
      · simpa [hdoc] using hbefore c hc
      · exact le_rfl
      · exact (List.pairwise_cons.mp (List.pairwise_append.mp hsorted).2.1).1 c hc
    rw [hd] at hmeant
    have hclear := (List.mem_filter.mp (List.mem_of_find?_eq_some hmeant)).2
    have hlater := of_decide_eq_true hclear item hitem
    omega
  · intro hclear
    rw [documenting?, documenting?, standingClear, List.find?_filter]
    refine List.find?_congr fun c hc => ?_
    cases hdoc : isDocumentation c with
    | false => simp
    | true =>
        have hlater : ∀ item ∈ previous, item.endLine < c.line := fun item hitem =>
          lt_of_le_of_ne (hbound item hitem c hc) (hclear c hc hdoc item hitem).symm
        simpa using decide_eq_true hlater

/-! ## Properties -/

/-- A property takes its description from a comment, and its default from there too if the pattern
of the component states none. -/
structure DocumentedBy (setting : Setting) (comment : Option Comment) (p : Property) : Prop where
  description : p.description = if setting.selection.descriptions then
    (comment.map fun c => (DocComment.parse c.text).description).filter (· ≠ "") else none
  defaultValue : p.defaultValue = if setting.selection.defaultValues then
    (defaultOf? setting.defaults p.name).or
      (comment.bind fun c => (DocComment.parse c.text).defaultValue?) else none

theorem documentedBy_of_property? {setting : Setting} {p : Property}
    (hp : property? setting signature (above.map Comment.text) = some p) :
    DocumentedBy setting (documenting? above) p := by
  refine ⟨?_, ?_⟩
  · unfold property? at hp
    dsimp only at hp
    split at hp
    · cases hp
    · cases hp
      rw [docComment?_map_text, Option.map_map]
      rfl
  · rw [(of_property?_eq_some hp).2, docComment?_map_text, Option.bind_map]
    rfl

variable {fs : FileSystem} {namespaces : List String} {selection : PropertySelection}
  {P : Project} {place : Path} {given : String} {p : Property}

theorem Walked.shown {root : Node} {inherited : Bool} {nodes : List Node}
    (hroot : propsNode? fs P place = some root) (hwalked : Walked P fs root inherited nodes)
    {n : Node} (hn : n ∈ nodes) : Shown P fs n := by
  cases hwalked with
  | direct =>
      obtain ⟨-, -, -, -, hshown⟩ := shown_of_propsNode? hroot
      exact List.mem_singleton.mp hn ▸ hshown
  | inherited hshown _ => exact hshown n hn

/-- **A listed property is documented by the first documentation comment between its member and the
one in front.**  That is the first one that starts below the end of the member in front if and only
if none of the documentation comments between the two starts on the line where that one ends. -/
theorem documentation_of_mem_properties
    (hp : p ∈ (properties fs namespaces selection P place given).1) :
    ∃ root nodes signature previous above, propsNode? fs P place = some root ∧
      Walked P fs root selection.inheritedProperties nodes ∧
      FirstMember nodes p.name signature (above.map Comment.text) ∧
      (∃ n ∈ nodes, ∃ body ∈ n.2.bodies, Site body signature previous above) ∧
      DocumentedBy (settingFor namespaces selection root.1 root.2) (documenting? above) p ∧
      (documenting? (standingClear previous above) = documenting? above ↔
        ∀ c ∈ above, isDocumentation c → ∀ item ∈ previous, c.line ≠ item.endLine) := by
  obtain ⟨root, nodes, hroot, hwalked, hlisted⟩ := exists_walked hp
  obtain ⟨signature, comments, hfirst, hproperty⟩ := exists_firstMember hlisted
  obtain ⟨n, hn, body, hbody, hbelow⟩ := hfirst.standsBelow
  obtain ⟨previous, above, hsite, rfl⟩ := exists_site hbelow
  have horder : InLineOrder body :=
    ParsedFile.inLineOrder_of_mem_bodies
      (List.mem_of_find?_eq_some (hwalked.shown hroot hn).declaration?_eq) hbody
  exact ⟨root, nodes, signature, previous, above, hroot, hwalked, hfirst,
    ⟨n, hn, body, hbody, hsite⟩, documentedBy_of_property? hproperty,
    hsite.documenting?_standingClear_iff horder⟩

/-- A file that declares the properties of a component. -/
def propsFile (text : String) : FileSystem :=
  FileSystem.write ⟨.directory 0 [], [], []⟩ (Path.ofString "/T.ts") (Text.bytesOf text) 0

/-- A comment on a line of its own documents the member below it. -/
theorem below_documented :
    let fs := propsFile "interface TProps\x7b\n_a:A\n/** About b. */\nb:B\x7d"
    let p : Property := ⟨"b", "B", true, some "About b.", none⟩
    p ∈ (properties fs [] {} mutualProject (Path.ofString "/T.ts") "T.ts").1 ∧
      ∃ root signature previous above, propsNode? fs mutualProject (Path.ofString "/T.ts") =
          some root ∧
        (∃ body ∈ root.2.bodies, Site body signature previous above) ∧
        DocumentedBy (settingFor [] {} root.1 root.2) (documenting? above) p := by
  intro fs p
  have hp : p ∈ (properties fs [] {} mutualProject (Path.ofString "/T.ts") "T.ts").1 := by
    decide +kernel
  obtain ⟨root, nodes, signature, previous, above, hroot, hwalked, -, ⟨n, hn, hsite⟩, hdocumented,
    -⟩ := documentation_of_mem_properties hp
  cases hwalked
  obtain rfl := List.mem_singleton.mp hn
  exact ⟨hp, n, signature, previous, above, hroot, hsite, hdocumented⟩

/-- A comment behind a member, on the same line, documents the next member, although no comment
stands clear of the member in front. -/
theorem trailing_documents_next :
    let text := "interface TProps\x7b\n_a:A /** About _a. */\nb:B\x7d"
    let a : BodyItem := .property ⟨"_a", false, some "A"⟩ 2 2
    (ParsedFile.ofSource (Path.ofString "/T.ts") (Text.bytesOf text)).declarations.flatMap
        Declaration.bodies =
      [[a, .comment "/** About _a. */" 2, .property ⟨"b", false, some "B"⟩ 3 3]] ∧
    standingClear (some a) [⟨"/** About _a. */", 2⟩] = [] ∧
    ⟨"b", "B", true, some "About _a.", none⟩ ∈
      (properties (propsFile text) [] {} mutualProject (Path.ofString "/T.ts") "T.ts").1 :=
  ⟨by decide +kernel, rfl, by decide +kernel⟩

end Extraction

end ComponentDocs
