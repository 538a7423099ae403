import ComponentDocs.Source.File

/-!
# The lines of a body

The items of a body are read from the top to the bottom, so a comment behind a member starts on the
line where the member ends or on a later one, and a comment behind a comment on the same line or on
a later one (`Spans`).  This holds of every body in a source file (`inLineOrder_of_mem_bodies`).

* **Gaps and bodies.**  What stands between two tokens spans the lines from the one to the other
  (`spans_gap`); a body is put together from such gaps and from members (`spans_body`).
* **The grammar.**  Bodies are only made by `Grammar.body`; all other productions pass them on
  (`Yields`).
-/

namespace ComponentDocs.Source

/-! ## Lines -/

/-- A comment as an item of a body. -/
def Comment.item (c : Comment) : BodyItem := .comment c.text c.line

/-- Items span lines: the first comments start on the first line or below, those behind a member on
the line where it ends or below, and each comment where the one before it starts or below. -/
inductive Spans : Nat → List BodyItem → Nat → Prop
  | nil {first last : Nat} (hle : first ≤ last) : Spans first [] last
  | comment {first line last : Nat} {text : String} {rest : List BodyItem} (hle : first ≤ line)
      (hrest : Spans line rest last) : Spans first (.comment text line :: rest) last
  | property {first line lastLine last : Nat} {signature : PropertySignature}
      {rest : List BodyItem} (hrest : Spans lastLine rest last) :
      Spans first (.property signature line lastLine :: rest) last
  | other {first line lastLine last : Nat} {rest : List BodyItem}
      (hrest : Spans lastLine rest last) : Spans first (.other line lastLine :: rest) last

namespace Spans

variable {first middle last outer : Nat} {items more : List BodyItem}

theorem mono_left (hspans : Spans first items last) (hle : outer ≤ first) :
    Spans outer items last := by
  cases hspans with
  | nil hfirst => exact .nil (Nat.le_trans hle hfirst)
  | comment hfirst hrest => exact .comment (Nat.le_trans hle hfirst) hrest
  | property hrest => exact .property hrest
  | other hrest => exact .other hrest

theorem mono_right (hspans : Spans first items last) (hle : last ≤ outer) :
    Spans first items outer := by
  induction hspans with
  | nil hfirst => exact .nil (Nat.le_trans hfirst hle)
  | comment hfirst _ ih => exact .comment hfirst (ih hle)
  | property _ ih => exact .property (ih hle)
  | other _ ih => exact .other (ih hle)

theorem append (hitems : Spans first items middle) (hmore : Spans middle more last) :
    Spans first (items ++ more) last := by
  induction hitems with
  | nil hle => exact hmore.mono_left hle
  | comment hle _ ih => exact .comment hle (ih hmore)
  | property _ ih => exact .property (ih hmore)
  | other _ ih => exact .other (ih hmore)

end Spans

/-! ## Gaps -/

/-- The line where what is being read starts. -/
def GapMode.startLine (line : Nat) : GapMode → Nat
  | .blank => line
  | .lineComment _ n => n
  | .blockComment _ n => n

theorem le_below (c : Char) (line : Nat) : line ≤ if c == '\n' then line + 1 else line := by
  split <;> omega

/-- The comments that are found in a gap span its lines. -/
theorem exists_spans_readGap (mode : GapMode) (comments : List Comment) (newline : Bool)
    (left line : Nat) (cs : List Char) (hmode : mode.startLine line ≤ line) :
    ∃ found : List Comment,
      (readGap mode comments newline left line cs).comments = comments.reverse ++ found ∧
        Spans (mode.startLine line) (found.map Comment.item)
          (readGap mode comments newline left line cs).after.line := by
  induction cs generalizing mode comments newline left line with
  | nil =>
      cases mode with
      | blank => exact ⟨[], by simp [readGap], .nil Nat.le.refl⟩
      | lineComment text n =>
          exact ⟨[⟨String.ofList text.reverse, n⟩], by simp [readGap],
            .comment Nat.le.refl (.nil hmode)⟩
      | blockComment text n =>
          exact ⟨[⟨String.ofList text.reverse, n⟩], by simp [readGap],
            .comment Nat.le.refl (.nil hmode)⟩
  | cons c rest ih =>
      -- a comment that ends here comes first among those that are found
      have hended (text : String) (n : Nat) (newline : Bool) (left next : Nat) (hn : n ≤ line)
          (hnext : line ≤ next) : ∃ found : List Comment,
            (readGap .blank (⟨text, n⟩ :: comments) newline left next rest).comments =
              comments.reverse ++ found ∧
            Spans n (found.map Comment.item)
              (readGap .blank (⟨text, n⟩ :: comments) newline left next rest).after.line := by
        obtain ⟨found, hcomments, hspans⟩ :=
          ih .blank (⟨text, n⟩ :: comments) newline left next Nat.le.refl
        refine ⟨⟨text, n⟩ :: found, by simp [hcomments], .comment Nat.le.refl ?_⟩
        exact hspans.mono_left (Nat.le_trans hn hnext)
      cases mode with
      | blank =>
          rw [readGap]
          split
          · exact ih _ _ _ _ _ Nat.le.refl
          · split
            · exact ih _ _ _ _ _ Nat.le.refl
            · split
              · obtain ⟨found, hcomments, hspans⟩ :=
                  ih .blank comments (newline || c == '\n') (left - 1) _ Nat.le.refl
                exact ⟨found, hcomments, hspans.mono_left (le_below c line)⟩
              · exact ⟨[], by simp, .nil Nat.le.refl⟩
      | lineComment text n =>
          rw [readGap]
          split
          · exact hended _ _ _ _ _ hmode (le_below c line)
          · exact ih (.lineComment (c :: text) n) _ _ _ _ hmode
      | blockComment text n =>
          rw [readGap]
          split
          · exact hended _ _ _ _ _ hmode Nat.le.refl
          · exact ih (.blockComment (c :: text) n) _ _ _ _ (Nat.le_trans hmode (le_below c line))

/-- What stands between two tokens spans the lines from the one to the other. -/
theorem spans_gap (here : Cursor) :
    Spans here.line (here.gap.comments.map Comment.item) here.gap.after.line := by
  unfold Cursor.gap
  split
  · split
    · obtain ⟨found, hcomments, hspans⟩ :=
        exists_spans_readGap .blank [] false here.left here.line here.rest Nat.le.refl
      rw [hcomments]
      exact hspans
    · exact .nil Nat.le.refl
  · exact .nil Nat.le.refl

theorem Cursor.line_le_advance (n : Nat) (here : Cursor) : here.line ≤ (here.advance n).line := by
  induction n generalizing here with
  | zero => exact Nat.le.refl
  | succ n ih =>
      refine Nat.le_trans ?_ (ih here.next)
      unfold Cursor.next
      split
      · exact Nat.le.refl
      · exact le_below _ _

/-! ## Bodies -/

namespace Reader

variable {α β : Type}

/-- A step and then another one. -/
theorem bind_eq_some_iff {p : Reader α} {f : α → Reader β} {here last : Cursor} {b : β} :
    (p >>= f) here = some (b, last) ↔
      ∃ a there, p here = some (a, there) ∧ f a there = some (b, last) := by
  show (p here).bind (fun found => f found.1 found.2) = some (b, last) ↔ _
  rw [Option.bind_eq_some_iff]
  exact ⟨fun ⟨⟨a, there⟩, hp, hf⟩ => ⟨a, there, hp, hf⟩, fun ⟨a, there, hp, hf⟩ => ⟨_, hp, hf⟩⟩

theorem eq_some_of_orElse {p q : Reader α} {here : Cursor} {result : α × Cursor}
    (hread : (p <|> q) here = some result) : p here = some result ∨ q here = some result := by
  change (p here <|> q here) = some result at hread
  cases hp : p here with
  | none => exact .inr (by simpa [hp] using hread)
  | some found => exact .inl (by simpa [hp] using hread)

theorem map_eq_some_iff {p : Reader α} {f : α → β} {here last : Cursor} {b : β} :
    (f <$> p) here = some (b, last) ↔ ∃ a, p here = some (a, last) ∧ f a = b := by
  show (p >>= fun a => pure (f a)) here = some (b, last) ↔ _
  rw [bind_eq_some_iff]
  constructor
  · rintro ⟨a, there, hp, hf⟩
    cases hf
    exact ⟨a, hp, rfl⟩
  · rintro ⟨a, hp, rfl⟩
    exact ⟨a, last, hp, rfl⟩

theorem of_accepts {p : Reader α} {here last : Cursor} {found : Bool}
    (hread : accepts p here = some (found, last)) :
    (found = true ∧ ∃ a, p here = some (a, last)) ∨ found = false ∧ last = here := by
  rcases eq_some_of_orElse hread with hread | hread
  · obtain ⟨a, hp, rfl⟩ := map_eq_some_iff.mp hread
    exact .inl ⟨rfl, a, hp⟩
  · cases hread
    exact .inr ⟨rfl, rfl⟩

/-- Several rounds, each from the place where the one before ends. -/
inductive Rounds (p : Reader α) : Cursor → List α → Cursor → Prop
  | nil {here : Cursor} : Rounds p here [] here
  | cons {here there last : Cursor} {a : α} {rest : List α} (hread : p here = some (a, there))
      (hrest : Rounds p there rest last) : Rounds p here (a :: rest) last

theorem rounds_of_manyWith {p : Reader α} {n : Nat} {here last : Cursor} {found : List α}
    (hread : manyWith p n here = some (found, last)) : Rounds p here found last := by
  induction n generalizing here found with
  | zero =>
      cases hread
      exact .nil
  | succ n ih =>
      rw [manyWith] at hread
      dsimp only at hread
      cases hfirst : p here with
      | none =>
          rw [hfirst] at hread
          cases hread
          exact .nil
      | some first =>
          obtain ⟨a, there⟩ := first
          rw [hfirst] at hread
          dsimp only at hread
          split at hread
          · obtain ⟨⟨rest, place⟩, hrest, hread⟩ := Option.map_eq_some_iff.mp hread
            cases hread
            exact .cons hfirst (ih hrest)
          · cases hread
            exact .nil

theorem rounds_of_many {p : Reader α} {here last : Cursor} {found : List α}
    (hread : many p here = some (found, last)) : Rounds p here found last :=
  rounds_of_manyWith hread

theorem line_le_of_symbol {s : String} {here last : Cursor}
    (hread : symbol s here = some ((), last)) : here.gap.after.line ≤ last.line := by
  unfold symbol at hread
  dsimp only at hread
  split at hread
  · cases hread
    exact Cursor.line_le_advance _ _
  · cases hread

theorem eq_of_impliedSemicolon {inExpression : Bool} {here last : Cursor}
    (hread : impliedSemicolon inExpression here = some ((), last)) : last = here := by
  simp only [impliedSemicolon, Option.ite_none_right_eq_some, Option.some.injEq, Prod.mk.injEq,
    true_and] at hread
  exact hread.2.symm

end Reader

namespace Grammar

open Reader

variable {r : Rules} {here last : Cursor} {items : List BodyItem}

/-- The comments in front of a mark between two members span the lines up to it. -/
theorem of_accepts_separator {found : Bool}
    (hread : accepts (symbol ";" <|> symbol ",") here = some (found, last)) :
    (found = true ∧ Spans here.line (here.gap.comments.map Comment.item) last.line) ∨
      found = false ∧ last = here := by
  rcases of_accepts hread with ⟨hfound, _, hsymbol⟩ | hnone
  · refine .inl ⟨hfound, (spans_gap here).mono_right ?_⟩
    rcases eq_some_of_orElse hsymbol with hsymbol | hsymbol
    · exact line_le_of_symbol hsymbol
    · exact line_le_of_symbol hsymbol
  · exact .inr hnone

/-- A member with the comments in front of it, and with what stands behind it. -/
theorem spans_member (member : Member) (here after : Cursor) {rest : List BodyItem} {line : Nat}
    (hrest : Spans after.line rest line) :
    Spans here.line (here.gap.comments.map Comment.item ++ (match member with
      | .property signature => .property signature here.gap.after.line after.line
      | .other => .other here.gap.after.line after.line) :: rest) line := by
  refine (spans_gap here).append ?_
  cases member with
  | property signature => exact .property hrest
  | other => exact .other hrest

theorem spans_bodyEntry (hread : bodyEntry r here = some (items, last)) :
    Spans here.line items last.line := by
  obtain ⟨before, _, hbefore, hread⟩ := bind_eq_some_iff.mp hread
  cases hbefore
  obtain ⟨_, _, hhere, hread⟩ := bind_eq_some_iff.mp hread
  cases hhere
  obtain ⟨found, after, -, hread⟩ := bind_eq_some_iff.mp hread
  obtain ⟨_, _, hlast, hread⟩ := bind_eq_some_iff.mp hread
  cases hlast
  obtain ⟨_, _, hafter, hread⟩ := bind_eq_some_iff.mp hread
  cases hafter
  obtain ⟨separated, there, hseparated, hread⟩ := bind_eq_some_iff.mp hread
  rcases of_accepts_separator hseparated with ⟨rfl, hspans⟩ | ⟨rfl, rfl⟩
  · cases hread
    exact spans_member found here after hspans
  · obtain ⟨_, _, himplied, hread⟩ := bind_eq_some_iff.mp hread
    have hplace := eq_of_impliedSemicolon himplied
    cases hread
    exact spans_member found here there (.nil (Nat.le_of_eq (congrArg Cursor.line hplace).symm))

theorem spans_rounds {found : List (List BodyItem)}
    (hrounds : Rounds (bodyEntry r) here found last) :
    Spans here.line found.flatten last.line := by
  induction hrounds with
  | nil => exact .nil Nat.le.refl
  | cons hread _ ih => exact (spans_bodyEntry hread).append ih

/-- **The items of a body span the lines from its opening brace to its closing one.** -/
theorem spans_body (hread : body r here = some (items, last)) :
    ∃ first, Spans first items last.line := by
  obtain ⟨_, opened, -, hread⟩ := bind_eq_some_iff.mp hread
  obtain ⟨_, _, hbefore, hread⟩ := bind_eq_some_iff.mp hread
  cases hbefore
  obtain ⟨leading, there, hleading, hread⟩ := bind_eq_some_iff.mp hread
  obtain ⟨entries, after, hentries, hread⟩ := bind_eq_some_iff.mp hread
  obtain ⟨_, _, hrest, hread⟩ := bind_eq_some_iff.mp hread
  cases hrest
  obtain ⟨_, closed, hclosed, hread⟩ := bind_eq_some_iff.mp hread
  cases hread
  have hentries := spans_rounds (rounds_of_many hentries)
  have hrest := (spans_gap after).mono_right (line_le_of_symbol hclosed)
  refine ⟨opened.line, Spans.append (Spans.append ?_ hentries) hrest⟩
  rcases of_accepts_separator hleading with ⟨rfl, hspans⟩ | ⟨rfl, rfl⟩
  · exact hspans
  · exact .nil Nat.le.refl

end Grammar

/-- Items stand in the order of their lines. -/
def InLineOrder (items : List BodyItem) : Prop := ∃ first last, Spans first items last

/-! ## What readers yield -/

namespace Reader

variable {α β : Type}

/-- Whatever a reader yields is good. -/
def Yields (good : α → Prop) (p : Reader α) : Prop :=
  ∀ here a last, p here = some (a, last) → good a

namespace Yields

variable {good : α → Prop} {fine : β → Prop} {p q : Reader α}

theorem pure {a : α} (ha : good a) : Yields good (Pure.pure a) := by
  intro here b last hread
  cases hread
  exact ha

theorem failure : Yields good (Alternative.failure : Reader α) := by
  intro here a last hread
  cases hread

theorem bind_of {f : α → Reader β} (hp : Yields good p) (hf : ∀ a, good a → Yields fine (f a)) :
    Yields fine (p >>= f) := by
  intro here b last hread
  obtain ⟨a, there, hfirst, hread⟩ := bind_eq_some_iff.mp hread
  exact hf a (hp _ _ _ hfirst) _ _ _ hread

theorem bind {f : α → Reader β} (hf : ∀ a, Yields fine (f a)) : Yields fine (p >>= f) :=
  bind_of (fun _ _ _ _ => trivial) fun a (_ : True) => hf a

theorem orElse (hp : Yields good p) (hq : Yields good q) : Yields good (p <|> q) := by
  intro here a last hread
  exact (eq_some_of_orElse hread).elim (hp _ _ _) (hq _ _ _)

theorem map {f : α → β} (hp : Yields (fun a => fine (f a)) p) : Yields fine (f <$> p) := by
  intro here b last hread
  obtain ⟨a, hfirst, rfl⟩ := map_eq_some_iff.mp hread
  exact hp _ _ _ hfirst

theorem giving {b : β} (hb : fine b) : Yields fine (giving b p) := map fun _ _ _ _ => hb

theorem seqRight {p : Reader β} (hq : Yields good q) : Yields good (p *> q) :=
  bind fun _ => hq

theorem seqLeft {q : Reader β} (hp : Yields good p) : Yields good (p <* q) :=
  bind_of hp fun _ ha => bind fun _ => pure ha

theorem many (hp : Yields good p) : Yields (fun found => ∀ a ∈ found, good a) (many p) := by
  intro here found last hread
  have hrounds := rounds_of_many hread
  clear hread
  induction hrounds with
  | nil => exact fun _ ha => nomatch ha
  | cons hread _ ih => exact List.forall_mem_cons.mpr ⟨hp _ _ _ hread, ih⟩

end Yields

end Reader

/-! ## Types -/

namespace TypeShape

/-- All bodies in a type stand in the order of their lines. -/
def InOrder (shape : TypeShape) : Prop := ∀ body ∈ shape.bodies, InLineOrder body

theorem inOrder_other : other.InOrder := fun _ hbody => nomatch hbody

theorem inOrder_base (b : BaseType) : (base b).InOrder := fun _ hbody => nomatch hbody

theorem inOrder_object {body : List BodyItem} (hbody : InLineOrder body) :
    (object body).InOrder := by
  intro found hfound
  obtain rfl := List.mem_singleton.mp hfound
  exact hbody

theorem inOrder_combined {parts : List TypeShape} (hparts : ∀ part ∈ parts, part.InOrder) :
    (combined parts).InOrder := by
  show ∀ body ∈ bodiesOfParts parts, InLineOrder body
  induction parts with
  | nil => exact fun _ hbody => nomatch hbody
  | cons part rest ih =>
      obtain ⟨hpart, hrest⟩ := List.forall_mem_cons.mp hparts
      rw [bodiesOfParts]
      exact List.forall_mem_append.mpr ⟨hpart, ih hrest⟩

end TypeShape

/-- All bodies of a declaration stand in the order of their lines. -/
def Declaration.InOrder (d : Declaration) : Prop := ∀ body ∈ d.bodies, InLineOrder body

/-- If something defined is a declaration, all its bodies stand in the order of their lines. -/
def Definition.InOrder : Definition → Prop
  | .type declaration => declaration.InOrder
  | _ => True

/-- What a statement defines stands in the order of its lines. -/
def Statement.InOrder (s : Statement) : Prop :=
  ∀ definition, ParsedFile.definitionOf s = some definition → definition.InOrder

namespace Grammar

open Reader

variable {r : Rules}

theorem yields_body : Yields InLineOrder (body r) := fun _ _ _ hread =>
  (spans_body hread).elim fun first hspans => ⟨first, _, hspans⟩

theorem yields_other {α : Type} {p : Reader α} : Yields TypeShape.InOrder (giving .other p) :=
  .giving TypeShape.inOrder_other

/-- A definition of something else holds no declaration. -/
theorem yields_otherDefinition {p : Reader Found} :
    Yields (fun found => found.1.InOrder) ((Definition.other, ·) <$> p) :=
  .map fun _ _ _ _ => trivial

theorem yields_interface : Yields Declaration.InOrder (interface r) := by
  refine .bind fun _ => .bind fun name => .bind fun _ => .bind fun bases => ?_
  refine .bind_of yields_body fun items hitems => .pure fun found hfound => ?_
  exact List.mem_singleton.mp hfound ▸ hitems

theorem yields_functionDefinition :
    Yields (fun found => found.1.InOrder) (functionDefinition r) := by
  refine .bind fun _ => .bind fun _ => .bind fun generator => .bind fun name => .bind ?_
  intro (shape, inner)
  refine .pure ?_
  split <;> trivial

theorem yields_defaultValue : Yields Definition.InOrder (defaultValue r) := by
  refine .orElse (.map yields_functionDefinition) (.orElse (.giving trivial) ?_)
  refine .orElse (.giving trivial) (.orElse (.map yields_interface) ?_)
  exact .orElse (.giving trivial) (.giving trivial)

section Productions

variable (hr : Yields TypeShape.InOrder r.type)
include hr

theorem yields_simpleType : Yields TypeShape.InOrder (simpleType r) := by
  have hbase {p : Reader BaseType} : Yields TypeShape.InOrder (.base <$> p) :=
    .map fun _ b _ _ => TypeShape.inOrder_base b
  unfold simpleType
  refine .bind fun cs => ?_
  split
  · refine .bind fun _ => .bind_of hr fun shape hshape => .bind fun _ => .pure ?_
    exact TypeShape.inOrder_combined fun part hpart => List.mem_singleton.mp hpart ▸ hshape
  · exact .bind_of yields_body fun items hitems => .pure (TypeShape.inOrder_object hitems)
  · exact yields_other
  · exact yields_other
  · exact yields_other
  · exact yields_other
  · exact yields_other
  · split
    · exact yields_other
    · refine .bind fun w => ?_
      split
      · exact yields_other
      · exact yields_other
      · exact .orElse yields_other hbase
      · split
        · exact yields_other
        · exact hbase
  · exact .failure

theorem yields_postfixType : Yields TypeShape.InOrder (postfixType r) := by
  refine .bind_of (yields_simpleType hr) fun shape hshape => .bind fun accesses => .pure ?_
  split
  · exact hshape
  · exact TypeShape.inOrder_other

theorem yields_operandType : Yields TypeShape.InOrder (operandType r) := by
  have hshape := yields_postfixType hr
  refine .orElse yields_other (.orElse yields_other (.orElse yields_other (.orElse ?_ hshape)))
  refine .bind fun operators => .bind_of hshape fun shape hshape => .pure ?_
  split
  · exact hshape
  · exact TypeShape.inOrder_other

theorem yields_intersection : Yields TypeShape.InOrder (intersection r) := by
  have hoperand := yields_operandType hr
  refine .bind fun leading => .bind_of hoperand fun first hfirst => ?_
  refine .bind_of (.many (.seqRight hoperand)) fun rest hrest => .pure ?_
  split
  · exact TypeShape.inOrder_combined (List.forall_mem_cons.mpr ⟨hfirst, hrest⟩)
  · exact hfirst

theorem yields_union : Yields TypeShape.InOrder (union r) := by
  refine .bind fun leading => .bind_of (yields_intersection hr) fun first hfirst => ?_
  refine .bind fun rest => .pure ?_
  split
  · exact TypeShape.inOrder_other
  · exact hfirst

theorem yields_type : Yields TypeShape.InOrder (type r) := by
  refine .bind_of (yields_union hr) fun subject hsubject => .bind fun conditional => .pure ?_
  split
  · exact TypeShape.inOrder_other
  · exact hsubject

theorem yields_typeAlias : Yields Declaration.InOrder (typeAlias r) := by
  refine .bind fun _ => .bind fun name => .bind fun _ => .bind fun _ => ?_
  exact .bind_of hr fun shape hshape => .bind fun _ => .pure hshape

theorem yields_definition : Yields (fun found => found.1.InOrder) (definition r) := by
  have hbindings : Yields (fun found => found.1.InOrder) (bindingList r true) :=
    .bind fun _ => .bind fun _ => .bind fun first => .bind fun rest => .pure trivial
  refine .orElse (.map (.orElse yields_interface (yields_typeAlias hr))) ?_
  refine .orElse (.seqLeft hbindings) (.orElse yields_functionDefinition ?_)
  exact .orElse (.giving trivial) (.orElse yields_otherDefinition (.giving trivial))

theorem yields_statement : Yields (fun found => found.1.InOrder) (statement r) := by
  refine .orElse yields_otherDefinition (.orElse (.giving trivial) ?_)
  refine .orElse yields_otherDefinition (.orElse (yields_definition hr) ?_)
  exact .orElse yields_otherDefinition (.orElse yields_otherDefinition yields_otherDefinition)

theorem yields_exportStatement : Yields Statement.InOrder (exportStatement r) := by
  have hnone (isDefault : Bool) : (Statement.exporting isDefault none).InOrder := nofun
  have hsome {isDefault : Bool} {d : Definition} (hd : d.InOrder) :
      (Statement.exporting isDefault (some d)).InOrder := fun _ h => Option.some.inj h ▸ hd
  refine .bind fun _ => .bind fun _ => .orElse ?_ (.orElse ?_ (.orElse ?_ ?_))
  · exact .bind fun _ => .bind_of yields_defaultValue fun d hd => .pure (hsome hd)
  · exact .bind fun _ => .pure (hnone false)
  · exact .giving (hsome trivial)
  · exact .bind_of (yields_definition hr) fun (d, _) hd => .pure (hsome hd)

theorem yields_topStatement : Yields Statement.InOrder (topStatement r) := by
  refine .orElse (.map fun _ _ _ _ => nofun) (.orElse (yields_exportStatement hr) ?_)
  refine .bind_of (yields_statement hr) fun (d, _) hd => .pure fun _ h => ?_
  exact Option.some.inj h ▸ hd

theorem yields_topStatements :
    Yields (fun statements => ∀ s ∈ statements, s.InOrder) (topStatements r) := by
  have hline : Yields (fun found : Option Statement => ∀ s ∈ found, s.InOrder)
      ((some <$> topStatement r) <|> giving none skipLine) :=
    .orElse (.map fun here s last hread found hfound => Option.some.inj hfound ▸
      yields_topStatement hr here s last hread) (.giving nofun)
  refine .bind_of (.many hline) fun found hfound => .pure fun s hs => ?_
  obtain ⟨_, hs, rfl⟩ := List.mem_filterMap.mp hs
  exact hfound _ hs s rfl

end Productions

theorem yields_type_rules (elements : Bool) (depth : Nat) :
    Yields TypeShape.InOrder (rules elements depth).type := by
  induction depth with
  | zero => exact .failure
  | succ depth ih => exact yields_type ih

end Grammar

/-! ## Files -/

theorem Module.inOrder_of_mem_statements {elements : Bool} {text : String} {s : Statement}
    (hs : s ∈ (Module.ofText elements text).statements) : s.InOrder := by
  unfold Module.ofText at hs
  dsimp only at hs
  split at hs
  · next hread =>
      exact Grammar.yields_topStatements (Grammar.yields_type_rules _ _) _ _ _ hread s hs
  · cases hs

/-- **Every body of a declaration in a source file stands in the order of its lines.** -/
theorem ParsedFile.inLineOrder_of_mem_bodies {file : ParsedFile} {d : Declaration}
    (hd : d ∈ file.declarations) {body : List BodyItem} (hbody : body ∈ d.bodies) :
    InLineOrder body := by
  obtain ⟨definition, hdefinition, hd⟩ := List.mem_filterMap.mp hd
  obtain ⟨s, hs, hdefinition⟩ := List.mem_filterMap.mp hdefinition
  rw [file.module_eq] at hs
  have horder := Module.inOrder_of_mem_statements hs definition hdefinition
  cases definition <;> cases hd
  exact horder body hbody

end ComponentDocs.Source
