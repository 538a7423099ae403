import Mathlib.Data.List.Induction
import Mathlib.Data.List.Nodup
import ComponentDocs.DocComment
import ComponentDocs.Proofs.Text.Trimming

/-!
# Comments as they are written

A documentation comment is usually laid out over several lines, each behind a star: first the lines
of the description, then the tags, each with its name and its text, which may go on over further
lines.  Reading such a comment gives back what was laid out (`DocComment.parse_written`): the
description line by line, with its blank lines, its indentation and its bullets, and for each name
the text of its last tag on one line.

The reading goes line by line.  What a line of the description adds to what has been read, and what
a whole tag does, are `foldl_addLine_description` and `foldl_addLine_tag`.
-/

namespace ComponentDocs

/-- How a line ends: with a line feed, or with a carriage return before it. -/
inductive LineEnd where
  | feed
  | returnFeed
  deriving DecidableEq, Repr

/-- The characters of a line end. -/
def LineEnd.text : LineEnd → List Char
  | .feed => ['\n']
  | .returnFeed => ['\r', '\n']

/-! ## Lines of a text -/

namespace Text

/-- Whether a text stays on one line. -/
def isOneLine (s : String) : Bool := s.toList.all (!isLineBreak ·)

/-- Lines with their ends, which are numbered from the first line on. -/
def closeLines (ends : ℕ → LineEnd) : List (List Char) → List Char
  | [] => []
  | line :: rest => line ++ (ends 0).text ++ closeLines (fun n => ends (n + 1)) rest

theorem linesAfter_append {line : List Char} (hline : ∀ c ∈ line, isLineBreak c = false)
    (current : List Char) (ending : LineEnd) (rest : List Char) :
    linesAfter current (line ++ ending.text ++ rest) =
      (current.reverse ++ line) :: linesAfter [] rest := by
  induction line generalizing current with
  | nil =>
      rw [List.nil_append, List.append_nil]
      cases ending with
      | feed => rw [LineEnd.text, List.singleton_append, linesAfter, if_pos (by decide)]; simp
      | returnFeed => rw [LineEnd.text, List.cons_append, List.singleton_append, linesAfter]
  | cons c more ih =>
      obtain ⟨hc, hmore⟩ := List.forall_mem_cons.mp hline
      have hreturn : c ≠ '\r' := fun h => by subst h; exact absurd hc (by decide)
      rw [List.cons_append, List.cons_append, linesAfter, hc, if_neg Bool.false_ne_true, ih hmore,
        List.reverse_cons, List.append_assoc, List.singleton_append]
      exact fun _ h => absurd h hreturn

/-- Lines that have been closed are told apart again. -/
theorem lines_closeLines {ls : List (List Char)}
    (hls : ∀ line ∈ ls, ∀ c ∈ line, isLineBreak c = false) (ends : ℕ → LineEnd)
    (rest : List Char) :
    lines (closeLines ends ls ++ rest) = ls ++ lines rest := by
  induction ls generalizing ends with
  | nil => rfl
  | cons line more ih =>
      obtain ⟨hline, hmore⟩ := List.forall_mem_cons.mp hls
      rw [closeLines, List.append_assoc, lines, linesAfter_append hline]
      exact congrArg (line :: ·) (ih hmore _)

theorem joinLines_eq_intercalate (ls : List (List Char)) :
    joinLines ls = ['\n'].intercalate ls := by
  induction ls with
  | nil => rfl
  | cons line rest ih =>
      cases rest with
      | nil => simp [joinLines, List.intercalate]
      | cons next more =>
          have hjoin : joinLines (line :: next :: more) =
            line ++ '\n' :: joinLines (next :: more) := rfl
          rw [hjoin, ih, List.intercalate_cons_cons, List.append_assoc, List.singleton_append]

end Text

/-! ## What is laid out -/

namespace DocComment

/-- Whether a line opens a tag: an at sign is the first character that is no blank. -/
def opensTag (line : List Char) : Bool := (Text.trimStart line).head? == some '@'

/-- A line of a comment, behind its star. -/
def behindStar (line : List Char) : List Char := ' ' :: '*' :: ' ' :: line

/-- The texts trimmed and joined by single spaces, the blank ones left out. -/
def joinTexts (texts : List (List Char)) : List Char :=
  [' '].intercalate ((texts.map Text.trim).filter (· ≠ []))

/-- A tag as it is written: its name, the spaces behind it, the text on the same line, and the texts
of the lines that go on with it. -/
structure WrittenTag where
  name : String
  spaces : ℕ
  first : String
  more : List String
  name_nonempty : name ≠ "" := by decide
  name_solid : name.toList.all (!Text.isBlank ·) := by decide
  spaces_pos : 0 < spaces := by decide
  one_line : (first :: more).all Text.isOneLine := by decide
  more_untagged : more.all (!opensTag ·.toList) := by decide

namespace WrittenTag

/-- The lines of a tag. -/
def lines (tag : WrittenTag) : List (List Char) :=
  ('@' :: tag.name.toList ++ List.replicate tag.spaces ' ' ++ tag.first.toList) ::
    tag.more.map String.toList

/-- The text of a tag on one line. -/
def text (tag : WrittenTag) : String :=
  " ".intercalate (((tag.first :: tag.more).map Text.trimmed).filter (· ≠ ""))

end WrittenTag

/-- A comment as it is written: the lines of its description, the first and the last of them not
blank, and its tags. -/
structure WrittenComment where
  description : List String
  tags : List WrittenTag
  one_line : description.all Text.isOneLine := by decide
  untagged : description.all (!opensTag ·.toList) := by decide
  closed : description.all (·.toList.getLast?.all (!Text.isBlank ·)) := by decide
  starts : description.head?.all (·.toList.head?.any (!Text.isBlank ·)) := by decide
  ends : description.getLast?.all (· ≠ "") := by decide

namespace WrittenComment

/-- The lines of a comment without their stars. -/
def lines (comment : WrittenComment) : List (List Char) :=
  comment.description.map String.toList ++ comment.tags.flatMap WrittenTag.lines

/-- The text of a comment, one line behind the other. -/
def toText (comment : WrittenComment) (ends : ℕ → LineEnd) : String :=
  String.ofList (Text.closeLines ends (['/', '*', '*'] :: comment.lines.map behindStar) ++
    [' ', '*', '/'])

end WrittenComment

/-! ## One line after the other -/

theorem withoutStar_behindStar (line : List Char) : withoutStar (behindStar line) = line := rfl

/-- Trimming decides no more than where a text ends. -/
theorem head?_trim (cs : List Char) : (Text.trim cs).head? = (Text.trimStart cs).head? := by
  have hfirst := List.head?_dropWhile_not Text.isBlank cs
  rw [Text.trim]
  rw [← Text.trimStart] at hfirst
  cases hstart : Text.trimStart cs with
  | nil => rfl
  | cons c rest =>
      rw [hstart] at hfirst
      rw [Text.trimEnd_cons_of_not_blank hfirst]
      rfl

theorem trim_ne_of_not_opensTag {line : List Char} (hline : opensTag line = false)
    (rest : List Char) : Text.trim line ≠ '@' :: rest := by
  intro htrim
  have hhead : (Text.trimStart line).head? = some '@' := by rw [← head?_trim, htrim]; rfl
  simp [opensTag, hhead] at hline

namespace Draft

variable {draft : Draft} {raw line name : List Char}

/-- A line that opens a tag gives it its name and its first text. -/
theorem addLine_of_tag (hraw : withoutStar raw = line) {rest : List Char}
    (hline : Text.trim line = '@' :: rest) :
    draft.addLine raw =
      { draft with
        tags := setTag (splitTag rest).1 (splitTag rest).2 draft.tags
        current := some (splitTag rest).1 } := by
  rw [addLine, Text.trimStart_trimEnd, hraw, hline]
  rfl

/-- As long as there is no tag, a line belongs to the description. -/
theorem addLine_of_current_none (hraw : withoutStar raw = line) (hline : opensTag line = false)
    (hcurrent : draft.current = none) :
    draft.addLine raw = { draft with lines := draft.lines ++ [Text.trimEnd line] } := by
  rw [addLine, Text.trimStart_trimEnd, hraw]
  dsimp only
  split
  · next rest htrim => exact absurd htrim (trim_ne_of_not_opensTag hline rest)
  · rw [hcurrent]

/-- Behind a tag, a line goes on with the text of it, unless it is blank. -/
theorem addLine_of_current_some (hraw : withoutStar raw = line) (hline : opensTag line = false)
    (hcurrent : draft.current = some name) :
    draft.addLine raw =
      if Text.trim line = [] then draft
      else { draft with tags := setTag name (Text.trim
        ((draft.tags.lookup name).getD [] ++ ' ' :: Text.trim line)) draft.tags } := by
  rw [addLine, Text.trimStart_trimEnd, hraw]
  dsimp only
  split
  · next rest htrim => exact absurd htrim (trim_ne_of_not_opensTag hline rest)
  · rw [hcurrent]
    simp only [List.isEmpty_iff]

end Draft

/-! ## Tags by name -/

section Tags

variable {name other text before : List Char} {tags : List (List Char × List Char)}

private theorem lookup_cons_eq_ite (key value : List Char) :
    List.lookup other ((key, value) :: tags) =
      if other = key then some value else tags.lookup other := by
  rw [List.lookup_cons]
  by_cases hother : other = key
  · rw [if_pos hother, beq_iff_eq.mpr hother]
  · rw [if_neg hother, beq_false_of_ne hother]

theorem lookup_setTag (name text other : List Char) (tags : List (List Char × List Char)) :
    (setTag name text tags).lookup other =
      if other = name then some text else tags.lookup other := by
  induction tags with
  | nil => rw [setTag, lookup_cons_eq_ite]
  | cons tag rest ih =>
      obtain ⟨key, value⟩ := tag
      rw [setTag, lookup_cons_eq_ite]
      by_cases hkey : key = name
      · subst hkey
        rw [if_pos rfl, lookup_cons_eq_ite]
        split <;> rfl
      · rw [if_neg hkey, lookup_cons_eq_ite, ih]
        by_cases hother : other = key
        · rw [if_pos hother, if_pos hother, if_neg (hother ▸ hkey)]
        · rw [if_neg hother, if_neg hother]

/-- Of two texts for one tag the last one counts. -/
theorem setTag_setTag : setTag name text (setTag name before tags) = setTag name text tags := by
  induction tags with
  | nil => simp [setTag]
  | cons tag rest ih =>
      obtain ⟨key, value⟩ := tag
      rw [setTag]
      by_cases hkey : key = name
      · rw [if_pos hkey, setTag, if_pos rfl, setTag, if_pos hkey]
      · rw [if_neg hkey, setTag, if_neg hkey, ih, setTag, if_neg hkey]

theorem mem_names_setTag :
    other ∈ (setTag name text tags).map Prod.fst ↔ other = name ∨ other ∈ tags.map Prod.fst := by
  induction tags with
  | nil => simp [setTag]
  | cons tag rest ih =>
      obtain ⟨key, value⟩ := tag
      rw [setTag]
      by_cases hkey : key = name
      · simp [hkey]
      · rw [if_neg hkey, List.map_cons, List.mem_cons, ih, List.map_cons, List.mem_cons,
          or_left_comm]

/-- Each name stands once among the tags. -/
theorem nodup_names_setTag (htags : (tags.map Prod.fst).Nodup) :
    ((setTag name text tags).map Prod.fst).Nodup := by
  induction tags with
  | nil => exact List.nodup_singleton name
  | cons tag rest ih =>
      obtain ⟨key, value⟩ := tag
      rw [List.map_cons, List.nodup_cons] at htags
      rw [setTag]
      by_cases hkey : key = name
      · rw [if_pos hkey, List.map_cons, List.nodup_cons, ← hkey]
        exact htags
      · rw [if_neg hkey, List.map_cons, List.nodup_cons, mem_names_setTag]
        exact ⟨not_or.mpr ⟨hkey, htags.1⟩, ih htags.2⟩

end Tags

/-! ## Texts of tags -/

theorem intercalate_concat {α : Type} (sep : List α) {parts : List (List α)} (hparts : parts ≠ [])
    (last : List α) :
    sep.intercalate (parts ++ [last]) = sep.intercalate parts ++ sep ++ last := by
  induction parts with
  | nil => exact absurd rfl hparts
  | cons part rest ih =>
      cases rest with
      | nil => simp [List.intercalate]
      | cons next more =>
          rw [List.cons_append, List.cons_append, List.intercalate_cons_cons, ← List.cons_append,
            ih (List.cons_ne_nil _ _), List.intercalate_cons_cons]
          simp only [List.append_assoc]

/-- Parts that are joined leave nothing only if there are none. -/
theorem intercalate_eq_nil {α : Type} {sep : List α} {parts : List (List α)}
    (hparts : ∀ part ∈ parts, part ≠ []) (hnil : sep.intercalate parts = []) : parts = [] := by
  cases parts with
  | nil => rfl
  | cons part rest =>
      have hpart : part ≠ [] := hparts part List.mem_cons_self
      cases rest with
      | nil => simp [List.intercalate, hpart] at hnil
      | cons next more => simp [List.intercalate_cons_cons, hpart] at hnil

theorem isTrimmed_intercalate {sep : List Char} {parts : List (List Char)}
    (hparts : ∀ part ∈ parts, Text.IsTrimmed part ∧ part ≠ []) :
    Text.IsTrimmed (sep.intercalate parts) := by
  induction parts with
  | nil => exact ⟨fun c hc => (by cases hc), fun c hc => (by cases hc)⟩
  | cons part rest ih =>
      obtain ⟨⟨hpart, hne⟩, hrest⟩ := List.forall_mem_cons.mp hparts
      cases rest with
      | nil => simpa [List.intercalate] using hpart
      | cons next more =>
          rw [List.intercalate_cons_cons]
          refine hpart.append (ih hrest) hne (fun hnil => ?_) sep
          exact List.cons_ne_nil _ _ (intercalate_eq_nil (fun p hp => (hrest p hp).2) hnil)

/-- The texts that are joined. -/
private def solidTexts (texts : List (List Char)) : List (List Char) :=
  (texts.map Text.trim).filter (· ≠ [])

private theorem of_mem_solidTexts {texts : List (List Char)} {text : List Char}
    (htext : text ∈ solidTexts texts) : Text.IsTrimmed text ∧ text ≠ [] := by
  obtain ⟨hmem, hne⟩ := List.mem_filter.mp htext
  obtain ⟨raw, -, rfl⟩ := List.mem_map.mp hmem
  exact ⟨Text.isTrimmed_trim raw, by simpa using hne⟩

private theorem solidTexts_concat (texts : List (List Char)) (text : List Char) :
    solidTexts (texts ++ [text]) =
      solidTexts texts ++ if Text.trim text = [] then [] else [Text.trim text] := by
  by_cases htext : Text.trim text = [] <;> simp [solidTexts, htext]

theorem joinTexts_concat_of_blank {text : List Char} (htext : Text.trim text = [])
    (texts : List (List Char)) : joinTexts (texts ++ [text]) = joinTexts texts := by
  have hsolid : solidTexts (texts ++ [text]) = solidTexts texts := by
    rw [solidTexts_concat, if_pos htext, List.append_nil]
  exact congrArg ([' '].intercalate ·) hsolid

/-- One more text is joined by a space, which is trimmed away again if it is the first one. -/
theorem trim_joinTexts_append {text : List Char} (htext : Text.trim text ≠ [])
    (texts : List (List Char)) :
    Text.trim (joinTexts texts ++ ' ' :: Text.trim text) = joinTexts (texts ++ [text]) := by
  have hjoined : joinTexts (texts ++ [text]) =
      [' '].intercalate (solidTexts texts ++ [Text.trim text]) := by
    show [' '].intercalate (solidTexts (texts ++ [text])) = _
    rw [solidTexts_concat, if_neg htext]
  have htrimmed : Text.IsTrimmed (Text.trim text) := Text.isTrimmed_trim text
  rw [hjoined]
  show Text.trim ([' '].intercalate (solidTexts texts) ++ ' ' :: Text.trim text) = _
  by_cases hsolid : solidTexts texts = []
  · have hspace : ∀ c ∈ [' '], Text.isBlank c := List.forall_mem_singleton.mpr (by decide)
    rw [hsolid, List.nil_append]
    calc Text.trim (' ' :: Text.trim text)
        = Text.trim (Text.trim text) := Text.trim_of_blank_append hspace
      _ = [' '].intercalate [Text.trim text] := by rw [htrimmed.trim_eq]; simp [List.intercalate]
  · have hbefore : Text.IsTrimmed ([' '].intercalate (solidTexts texts)) :=
      isTrimmed_intercalate fun _ hpart => of_mem_solidTexts hpart
    have hne : [' '].intercalate (solidTexts texts) ≠ [] := fun hnil =>
      hsolid (intercalate_eq_nil (fun _ hpart => (of_mem_solidTexts hpart).2) hnil)
    rw [intercalate_concat _ hsolid]
    calc Text.trim ([' '].intercalate (solidTexts texts) ++ ' ' :: Text.trim text)
        = Text.trim ([' '].intercalate (solidTexts texts) ++ [' '] ++ Text.trim text) := by
          rw [List.append_assoc, List.singleton_append]
      _ = [' '].intercalate (solidTexts texts) ++ [' '] ++ Text.trim text :=
          (hbefore.append htrimmed hne htext [' ']).trim_eq

/-! ## The description -/

/-- Lines whose first and last one have no blank at the outer end are trimmed as a whole. -/
theorem isTrimmed_joinLines {first : List Char} {more : List (List Char)}
    (hfirst : ∃ c ∈ first.head?, Text.isBlank c = false)
    (hlast : ∃ c ∈ ((first :: more).getLast (List.cons_ne_nil _ _)).getLast?,
      Text.isBlank c = false) :
    Text.IsTrimmed (Text.joinLines (first :: more)) where
  first c hc := by
    obtain ⟨d, hd, hblank⟩ := hfirst
    have hhead : (Text.joinLines (first :: more)).head? = some d := by
      cases more with
      | nil => exact hd
      | cons next rest =>
          show (first ++ '\n' :: Text.joinLines (next :: rest)).head? = some d
          rw [List.head?_append, Option.mem_def.mp hd]
          rfl
    rw [hhead] at hc
    exact Option.some.inj hc ▸ hblank
  last c hc := by
    obtain ⟨d, hd, hblank⟩ := hlast
    have hend : (Text.joinLines (first :: more)).getLast? = some d := by
      clear hc hfirst
      induction more generalizing first with
      | nil => exact hd
      | cons next rest ih =>
          have hrest := ih (by rwa [List.getLast_cons (List.cons_ne_nil _ _)] at hd)
          show (first ++ '\n' :: Text.joinLines (next :: rest)).getLast? = some d
          rw [List.getLast?_append, List.getLast?_cons, hrest]
          rfl
    rw [hend] at hc
    exact Option.some.inj hc ▸ hblank

namespace Draft

/-- Lines before the first tag are lines of the description, as they stand behind their stars. -/
theorem foldl_addLine_description {ls : List (List Char)}
    (hls : ∀ line ∈ ls, opensTag line = false ∧ Text.trimEnd line = line) {draft : Draft}
    (hcurrent : draft.current = none) :
    (ls.map behindStar).foldl addLine draft = { draft with lines := draft.lines ++ ls } := by
  induction ls generalizing draft with
  | nil => simp
  | cons line rest ih =>
      obtain ⟨⟨huntagged, htrim⟩, hrest⟩ := List.forall_mem_cons.mp hls
      have hline : draft.addLine (behindStar line) =
          { draft with lines := draft.lines ++ [line] } := by
        rw [addLine_of_current_none (withoutStar_behindStar line) huntagged hcurrent, htrim]
      rw [List.map_cons, List.foldl_cons, hline]
      calc (rest.map behindStar).foldl addLine { draft with lines := draft.lines ++ [line] }
          = { draft with lines := draft.lines ++ [line] ++ rest } := ih hrest hcurrent
        _ = { draft with lines := draft.lines ++ line :: rest } := by
            rw [List.append_assoc, List.singleton_append]

/-- Lines behind the line of a tag go on with the text of it. -/
theorem foldl_addLine_more {more : List (List Char)} (hmore : ∀ line ∈ more, opensTag line = false)
    (texts : List (List Char)) {name : List Char} {tags : List (List Char × List Char)}
    {draft : Draft} (hcurrent : draft.current = some name)
    (htags : draft.tags = setTag name (joinTexts texts) tags) :
    (more.map behindStar).foldl addLine draft =
      { draft with tags := setTag name (joinTexts (texts ++ more)) tags } := by
  induction more generalizing texts draft with
  | nil => rw [List.append_nil, ← htags]; rfl
  | cons line rest ih =>
      obtain ⟨huntagged, hrest⟩ := List.forall_mem_cons.mp hmore
      have hline : draft.addLine (behindStar line) =
          { draft with tags := setTag name (joinTexts (texts ++ [line])) tags } := by
        rw [addLine_of_current_some (withoutStar_behindStar line) huntagged hcurrent]
        by_cases hblank : Text.trim line = []
        · rw [if_pos hblank, joinTexts_concat_of_blank hblank, ← htags]
        · rw [if_neg hblank, htags, lookup_setTag, if_pos rfl, Option.getD_some,
            trim_joinTexts_append hblank, setTag_setTag]
      rw [List.map_cons, List.foldl_cons, hline]
      calc (rest.map behindStar).foldl addLine
              { draft with tags := setTag name (joinTexts (texts ++ [line])) tags }
          = { draft with tags := setTag name (joinTexts (texts ++ [line] ++ rest)) tags } :=
            ih hrest _ hcurrent rfl
        _ = { draft with tags := setTag name (joinTexts (texts ++ line :: rest)) tags } := by
            rw [List.append_assoc, List.singleton_append]

end Draft

/-! ## The tags -/

theorem splitTag_append {name tail : List Char} (hname : ∀ c ∈ name, c ≠ ' ')
    (htail : ∀ c ∈ tail.head?, c = ' ') :
    splitTag (name ++ tail) = (name, Text.trim (tail.drop 1)) := by
  have hsolid : ∀ c ∈ name, (c != ' ') = true := fun c hc => bne_iff_ne.mpr (hname c hc)
  rw [splitTag, List.takeWhile_append_of_pos hsolid, List.dropWhile_append_of_pos hsolid]
  cases tail with
  | nil => simp
  | cons c rest => simp [htail c rfl]

theorem joinTexts_singleton (text : List Char) : joinTexts [text] = Text.trim text := by
  by_cases htext : Text.trim text = [] <;> simp [joinTexts, htext, List.intercalate]

namespace WrittenTag

variable (tag : WrittenTag)

/-- The text of a tag, line by line. -/
def texts : List (List Char) := (tag.first :: tag.more).map String.toList

theorem not_blank_of_mem_name {c : Char} (hc : c ∈ tag.name.toList) : Text.isBlank c = false := by
  simpa using List.all_eq_true.mp tag.name_solid c hc

theorem text_eq : tag.text = String.ofList (joinTexts tag.texts) := by
  have hparts (parts : List String) :
      ((parts.map Text.trimmed).filter (· ≠ "")).map String.toList =
        ((parts.map String.toList).map Text.trim).filter (· ≠ []) := by
    induction parts with
    | nil => rfl
    | cons part rest ih =>
        by_cases hpart : Text.trim part.toList = []
        · have htrimmed : Text.trimmed part = "" := by rw [Text.trimmed, hpart]
          simpa [htrimmed, hpart] using ih
        · have htrimmed : Text.trimmed part ≠ "" := fun h => hpart (by
            rw [← String.toList_ofList (l := Text.trim part.toList), ← Text.trimmed, h]; rfl)
          simpa [htrimmed, hpart, Text.trimmed] using ih
  rw [← String.toList_inj, String.toList_ofList, text, String.toList_intercalate, hparts]
  rfl

/-- What is read on the first line of a tag: its name, and the text behind it. -/
theorem trim_first_line :
    ∃ rest, Text.trim ('@' :: tag.name.toList ++ List.replicate tag.spaces ' ' ++
      tag.first.toList) = '@' :: rest ∧
      splitTag rest = (tag.name.toList, joinTexts [tag.first.toList]) := by
  obtain ⟨spaces, hspaces⟩ := Nat.exists_eq_add_of_lt tag.spaces_pos
  have hname : Text.trimEnd ('@' :: tag.name.toList) = '@' :: tag.name.toList := by
    refine Text.trimEnd_eq_self fun c hc => ?_
    rcases List.mem_cons.mp (List.mem_of_getLast? hc) with rfl | hmem
    · decide
    · exact tag.not_blank_of_mem_name hmem
  have hblanks : ∀ c ∈ List.replicate spaces ' ', Text.isBlank c := fun c hc =>
    (List.mem_replicate.mp hc).2 ▸ by decide
  let behind := List.replicate spaces ' ' ++ tag.first.toList
  have htail : List.replicate tag.spaces ' ' ++ tag.first.toList = ' ' :: behind := by
    rw [hspaces, Nat.zero_add, List.replicate_succ, List.cons_append]
  have htrim : Text.trim (Text.trimEnd behind) = Text.trim tag.first.toList := by
    rw [Text.trim_trimEnd, Text.trim_of_blank_append hblanks]
  refine ⟨tag.name.toList ++ Text.trimEnd (' ' :: behind), ?_, ?_⟩
  · calc Text.trim ('@' :: tag.name.toList ++ List.replicate tag.spaces ' ' ++ tag.first.toList)
        = Text.trim ('@' :: tag.name.toList ++ ' ' :: behind) := by rw [List.append_assoc, htail]
      _ = Text.trimEnd ('@' :: tag.name.toList ++ ' ' :: behind) := rfl
      _ = '@' :: tag.name.toList ++ Text.trimEnd (' ' :: behind) :=
          Text.trimEnd_append_of_left_eq_self hname
  · have hnoSpace : ∀ c ∈ tag.name.toList, c ≠ ' ' := fun c hc h =>
      absurd (tag.not_blank_of_mem_name (h ▸ hc)) (by decide)
    rw [joinTexts_singleton, ← htrim, Text.trimEnd_cons]
    split
    · next hempty =>
        have hnil : Text.trimEnd behind = [] := by
          rw [Bool.and_eq_true] at hempty
          exact List.isEmpty_iff.mp hempty.1
        rw [splitTag_append hnoSpace (fun c hc => by cases hc), hnil]
        rfl
    · exact splitTag_append hnoSpace fun c hc => (Option.some.inj hc).symm

end WrittenTag

namespace Draft

/-- A whole tag: its text replaces an earlier one of the same name. -/
theorem foldl_addLine_tag (tag : WrittenTag) (draft : Draft) :
    (tag.lines.map behindStar).foldl addLine draft =
      { draft with
        tags := setTag tag.name.toList (joinTexts tag.texts) draft.tags
        current := some tag.name.toList } := by
  obtain ⟨rest, htrim, hsplit⟩ := tag.trim_first_line
  have hmore : ∀ line ∈ tag.more.map String.toList, opensTag line = false := by
    intro line hline
    obtain ⟨text, htext, rfl⟩ := List.mem_map.mp hline
    simpa using List.all_eq_true.mp tag.more_untagged text htext
  rw [WrittenTag.lines, List.map_cons, List.foldl_cons,
    addLine_of_tag (withoutStar_behindStar _) htrim, hsplit]
  exact foldl_addLine_more hmore [tag.first.toList] rfl rfl

/-- What the tags of a comment leave behind, one after the other. -/
def setTags (tags : List WrittenTag) (read : List (List Char × List Char)) :
    List (List Char × List Char) :=
  tags.foldl (fun read tag => setTag tag.name.toList (joinTexts tag.texts) read) read

theorem foldl_addLine_tags (tags : List WrittenTag) (draft : Draft) :
    ((tags.flatMap WrittenTag.lines).map behindStar).foldl addLine draft =
      { draft with
        tags := setTags tags draft.tags
        current := tags.foldl (fun _ tag => some tag.name.toList) draft.current } := by
  induction tags generalizing draft with
  | nil => rfl
  | cons tag rest ih =>
      rw [List.flatMap_cons, List.map_append, List.foldl_append, foldl_addLine_tag, ih]
      rfl

/-- Of several tags of one name the last one is kept. -/
theorem lookup_setTags (tags : List WrittenTag) (name : String) :
    (setTags tags []).lookup name.toList =
      (tags.filter (·.name = name)).getLast?.map fun tag => joinTexts tag.texts := by
  induction tags using List.reverseRecOn with
  | nil => rfl
  | append_singleton before tag ih =>
      have hlast : setTags (before ++ [tag]) [] =
          setTag tag.name.toList (joinTexts tag.texts) (setTags before []) := by
        rw [setTags, List.foldl_append]
        rfl
      rw [hlast, lookup_setTag, ih, List.filter_append]
      by_cases hname : tag.name = name
      · rw [if_pos (congrArg String.toList hname.symm)]
        simp [hname]
      · rw [if_neg fun h => hname (String.toList_inj.mp h).symm]
        simp [hname]

theorem nodup_setTags (tags : List WrittenTag) {read : List (List Char × List Char)}
    (hread : (read.map Prod.fst).Nodup) : ((setTags tags read).map Prod.fst).Nodup := by
  induction tags generalizing read with
  | nil => exact hread
  | cons tag rest ih => exact ih (nodup_names_setTag hread)

end Draft

/-! ## The whole comment -/

theorem body_of_marks (inner : List Char) :
    body ('/' :: '*' :: '*' :: (inner ++ ['*', '/'])) = inner := by
  have hsuffix : ['*', '/'].isSuffixOf (inner ++ ['*', '/']) = true :=
    List.isSuffixOf_iff_suffix.mpr (List.suffix_append inner ['*', '/'])
  have hlength : (inner ++ ['*', '/']).length - 2 = inner.length := by
    rw [List.length_append, List.length_cons, List.length_singleton, Nat.add_sub_cancel]
  show (if ['*', '/'].isSuffixOf (inner ++ ['*', '/']) then
    (inner ++ ['*', '/']).take ((inner ++ ['*', '/']).length - 2) else _) = inner
  rw [if_pos hsuffix, hlength, List.take_left]

theorem isBlank_of_isLineBreak {c : Char} (hc : Text.isLineBreak c = true) :
    Text.isBlank c = true := by
  simp only [Text.isLineBreak, Text.isBlank, Bool.or_eq_true, Bool.and_eq_true, decide_eq_true_eq,
    beq_iff_eq] at hc ⊢
  omega

theorem not_isLineBreak_of_isOneLine {s : String} (hs : Text.isOneLine s) {c : Char}
    (hc : c ∈ s.toList) : Text.isLineBreak c = false := by
  simpa using List.all_eq_true.mp hs c hc

theorem WrittenTag.not_isLineBreak_of_mem_lines (tag : WrittenTag) {line : List Char}
    (hline : line ∈ tag.lines) {c : Char} (hc : c ∈ line) : Text.isLineBreak c = false := by
  have htexts : ∀ s ∈ tag.first :: tag.more, ∀ c ∈ s.toList, Text.isLineBreak c = false :=
    fun s hs c hc => not_isLineBreak_of_isOneLine (List.all_eq_true.mp tag.one_line s hs) hc
  rcases List.mem_cons.mp hline with rfl | hmore
  · simp only [List.cons_append, List.mem_cons, List.mem_append] at hc
    rcases hc with rfl | (hname | hspace) | hfirst
    · decide
    · rw [Bool.eq_false_iff]
      intro hbreak
      exact absurd (isBlank_of_isLineBreak hbreak)
        (Bool.eq_false_iff.mp (tag.not_blank_of_mem_name hname))
    · exact (List.mem_replicate.mp hspace).2 ▸ by decide
    · exact htexts tag.first List.mem_cons_self c hfirst
  · obtain ⟨s, hs, rfl⟩ := List.mem_map.mp hmore
    exact htexts s (List.mem_cons_of_mem _ hs) c hc

namespace WrittenComment

variable (comment : WrittenComment)

theorem not_isLineBreak_of_mem_lines {line : List Char} (hline : line ∈ comment.lines) {c : Char}
    (hc : c ∈ line) : Text.isLineBreak c = false := by
  rcases List.mem_append.mp hline with hdescription | htags
  · obtain ⟨s, hs, rfl⟩ := List.mem_map.mp hdescription
    exact not_isLineBreak_of_isOneLine (List.all_eq_true.mp comment.one_line s hs) hc
  · obtain ⟨tag, -, hmem⟩ := List.mem_flatMap.mp htags
    exact tag.not_isLineBreak_of_mem_lines hmem hc

/-- Between its marks a comment has an empty line, its own lines behind their stars, and a space. -/
theorem lines_body_toText (ends : ℕ → LineEnd) :
    Text.lines (body (comment.toText ends).toList) =
      [] :: comment.lines.map behindStar ++ [[' ']] := by
  have htext : (comment.toText ends).toList = '/' :: '*' :: '*' ::
      (Text.closeLines ends ([] :: comment.lines.map behindStar) ++ [' '] ++ ['*', '/']) := by
    rw [toText, String.toList_ofList, Text.closeLines, Text.closeLines]
    simp only [List.cons_append, List.nil_append, List.append_assoc]
  have hbreaks : ∀ line ∈ [] :: comment.lines.map behindStar, ∀ c ∈ line,
      Text.isLineBreak c = false := by
    intro line hline c hc
    rcases List.mem_cons.mp hline with rfl | hmem
    · cases hc
    · obtain ⟨plain, hplain, rfl⟩ := List.mem_map.mp hmem
      simp only [behindStar, List.mem_cons] at hc
      rcases hc with rfl | rfl | rfl | hc
      · decide
      · decide
      · decide
      · exact comment.not_isLineBreak_of_mem_lines hplain hc
  rw [htext, body_of_marks, Text.lines_closeLines hbreaks]
  rfl

theorem of_mem_description {line : List Char}
    (hline : line ∈ comment.description.map String.toList) :
    opensTag line = false ∧ Text.trimEnd line = line := by
  obtain ⟨s, hs, rfl⟩ := List.mem_map.mp hline
  have hclosed : s.toList.getLast?.all (!Text.isBlank ·) = true :=
    List.all_eq_true.mp comment.closed s hs
  refine ⟨by simpa using List.all_eq_true.mp comment.untagged s hs,
    Text.trimEnd_eq_self fun c hc => ?_⟩
  rw [Option.mem_def.mp hc] at hclosed
  simpa using hclosed

/-- What has been read when the comment ends: the line of the opening mark is empty, and so is that
of the closing one, which belongs to the description if there is no tag. -/
theorem ofComment_toText (ends : ℕ → LineEnd) :
    (Draft.ofComment (comment.toText ends).toList).tags = Draft.setTags comment.tags [] ∧
      ∃ rest ∈ [[], [[]]], (Draft.ofComment (comment.toText ends).toList).lines =
        [] :: comment.description.map String.toList ++ rest := by
  let described : Draft := { lines := [] :: comment.description.map String.toList }
  let tagged : Draft :=
    { described with
      tags := Draft.setTags comment.tags []
      current := comment.tags.foldl (fun _ tag => some tag.name.toList) none }
  have hfold : Draft.ofComment (comment.toText ends).toList = tagged.addLine [' '] := by
    have hbody : (comment.lines.map behindStar).foldl Draft.addLine { lines := [[]] } = tagged := by
      rw [lines, List.map_append, List.foldl_append, Draft.foldl_addLine_description
        (fun line hline => comment.of_mem_description hline) rfl, Draft.foldl_addLine_tags]
      rfl
    rw [← hbody, Draft.ofComment, lines_body_toText, List.foldl_append]
    rfl
  rw [hfold]
  cases hcurrent : tagged.current with
  | none =>
      rw [Draft.addLine_of_current_none (show withoutStar [' '] = [' '] from rfl) (by decide)
        hcurrent]
      exact ⟨rfl, [[]], by simp, rfl⟩
  | some name =>
      rw [Draft.addLine_of_current_some (show withoutStar [' '] = [' '] from rfl) (by decide)
        hcurrent, if_pos (by decide)]
      exact ⟨rfl, [], by simp, (List.append_nil _).symm⟩

/-- The empty lines of the marks are trimmed away, and nothing else is. -/
theorem trim_joinLines_description {rest : List (List Char)} (hrest : rest ∈ [[], [[]]]) :
    Text.trim (Text.joinLines ([] :: comment.description.map String.toList ++ rest)) =
      Text.joinLines (comment.description.map String.toList) := by
  have hbreak : ∀ c ∈ ['\n'], Text.isBlank c := List.forall_mem_singleton.mpr (by decide)
  have hclosing : Text.trim (Text.joinLines
      ([] :: comment.description.map String.toList ++ rest)) =
        Text.trim (Text.joinLines ([] :: comment.description.map String.toList)) := by
    simp only [List.mem_cons, List.not_mem_nil, or_false] at hrest
    rcases hrest with rfl | rfl
    · rw [List.append_nil]
    · rw [Text.joinLines_eq_intercalate, intercalate_concat _ (List.cons_ne_nil _ _),
        List.append_nil, Text.trim_append_of_blank hbreak, Text.joinLines_eq_intercalate]
  rw [hclosing]
  cases hdescription : comment.description with
  | nil => rfl
  | cons first more =>
      have hfirst : ∃ c ∈ first.toList.head?, Text.isBlank c = false := by
        have hstarts := comment.starts
        simpa [hdescription, Option.any_eq_true] using hstarts
      have hlast : ∃ c ∈ ((first.toList :: more.map String.toList).getLast
          (List.cons_ne_nil _ _)).getLast?, Text.isBlank c = false := by
        have hmem : (first :: more).getLast (List.cons_ne_nil _ _) ∈ comment.description :=
          by rw [hdescription]; exact List.getLast_mem _
        have hne : (first :: more).getLast (List.cons_ne_nil _ _) ≠ "" := by
          have hends := comment.ends
          rw [hdescription, List.getLast?_eq_some_getLast (List.cons_ne_nil _ _)] at hends
          simpa using hends
        have hclosed := List.all_eq_true.mp comment.closed _ hmem
        have hmap : (first.toList :: more.map String.toList).getLast (List.cons_ne_nil _ _) =
            ((first :: more).getLast (List.cons_ne_nil _ _)).toList := by
          simpa using List.getLast_map (f := String.toList) (l := first :: more) (by simp)
        rw [hmap]
        generalize (first :: more).getLast (List.cons_ne_nil _ _) = last at hne hclosed
        rw [List.getLast?_eq_some_getLast (by simpa using hne)] at hclosed ⊢
        exact ⟨_, rfl, by simpa using hclosed⟩
      calc Text.trim (Text.joinLines ([] :: first.toList :: more.map String.toList))
          = Text.trim (['\n'] ++ Text.joinLines (first.toList :: more.map String.toList)) := rfl
        _ = Text.trim (Text.joinLines (first.toList :: more.map String.toList)) :=
            Text.trim_of_blank_append hbreak
        _ = Text.joinLines (first.toList :: more.map String.toList) :=
            (isTrimmed_joinLines hfirst hlast).trim_eq

end WrittenComment

private theorem lookup_ofChars (tags : List (List Char × List Char)) (name : String) :
    (tags.map fun (name, text) => (String.ofList name, String.ofList text)).lookup name =
      (tags.lookup name.toList).map String.ofList := by
  induction tags with
  | nil => rfl
  | cons tag rest ih =>
      obtain ⟨key, text⟩ := tag
      rw [List.map_cons, List.lookup_cons, ih, lookup_cons_eq_ite]
      by_cases hname : name.toList = key
      · subst hname
        simp
      · have hother : (name == String.ofList key) = false := by
          simpa using fun h => hname (by rw [h, String.toList_ofList])
        rw [hother, if_neg hname]

private theorem nodup_names_ofChars {tags : List (List Char × List Char)}
    (htags : (tags.map Prod.fst).Nodup) :
    ((tags.map fun (name, text) => (String.ofList name, String.ofList text)).map
      Prod.fst).Nodup := by
  have hnames : (tags.map fun (name, text) => (String.ofList name, String.ofList text)).map
      Prod.fst = (tags.map Prod.fst).map String.ofList := by
    rw [List.map_map, List.map_map]
    rfl
  rw [hnames]
  exact htags.map fun _ _ => String.ofList_inj.mp

/-- **Reading a comment undoes its layout.**  The description comes back line by line, with its
blank lines, its indentation and its bullets, and nothing behind the first tag enters it; each name
of a tag stands once, with the text of its last tag. -/
theorem parse_written (comment : WrittenComment) (ends : ℕ → LineEnd) :
    (parse (comment.toText ends)).description = "\n".intercalate comment.description ∧
      ((parse (comment.toText ends)).tags.map Prod.fst).Nodup ∧
      ∀ name, (parse (comment.toText ends)).tags.lookup name =
        (comment.tags.filter (·.name = name)).getLast?.map WrittenTag.text := by
  obtain ⟨htags, rest, hrest, hlines⟩ := comment.ofComment_toText ends
  have hread : (parse (comment.toText ends)).tags =
      (Draft.setTags comment.tags []).map fun (name, text) =>
        (String.ofList name, String.ofList text) := by
    rw [parse, htags]
  refine ⟨?_, ?_, fun name => ?_⟩
  · rw [parse, hlines, comment.trim_joinLines_description hrest, Text.joinLines_eq_intercalate,
      ← String.toList_inj, String.toList_ofList, String.toList_intercalate]
    rfl
  · rw [hread]
    exact nodup_names_ofChars (Draft.nodup_setTags comment.tags List.nodup_nil)
  · have htext : String.ofList ∘ (fun tag : WrittenTag => joinTexts tag.texts) = WrittenTag.text :=
      funext fun tag => tag.text_eq.symm
    rw [hread, lookup_ofChars, Draft.lookup_setTags, Option.map_map, htext]

example :
    let comment : WrittenComment :=
      { description := ["Picks.", "", "  * one"]
        tags := [
          { name := "param", spaces := 2, first := "x ", more := [] },
          { name := "param", spaces := 1, first := "", more := ["y", "  z"] }] }
    comment.toText (fun n => if n = 1 then .returnFeed else .feed) =
        "/**\n * Picks.\r\n * \n *   * one\n * @param  x \n * @param \n * y\n *   z\n */" ∧
      parse (comment.toText fun _ => .feed) =
        { description := "Picks.\n\n  * one", tags := [("param", "y z")] } := by
  cbv

end DocComment

end ComponentDocs
