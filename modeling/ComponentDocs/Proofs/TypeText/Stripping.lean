import Mathlib.Data.List.Perm.Basic
import Mathlib.Data.List.TakeWhile
import ComponentDocs.TypeText

/-!
# What is left out of a displayed type

The displayed form of a type leaves out qualifiers and namespaces, one namespace after the other.
Whatever the namespaces are, what is left is the rest of the text in its order (`exists_accounted`).

A namespace is meant to be left out where a qualified name begins with it, and nowhere else
(`Stripped`).  That is how it comes as long as no namespace and no qualifier of the text stands
right behind a part of a name (`Harmless.promised`): then no two names ever run together, so what a
pass leaves out of the text before it stands in the text itself.
-/

namespace ComponentDocs.TypeText

variable {letter : Char → Bool} {words : List (List Char)} {word before text kept : List Char}

/-! ## One pass over a text -/

theorem eraseFrom_append (skipped rest : List Char) :
    eraseFrom word skipped.length (skipped ++ rest) = eraseFrom word 0 rest := by
  induction skipped with
  | nil => rfl
  | cons c skipped ih => exact ih

theorem eraseFrom_word_append (hword : word ≠ []) (rest : List Char) :
    eraseFrom word 0 (word ++ rest) = eraseFrom word 0 rest := by
  cases word with
  | nil => exact absurd rfl hword
  | cons c more =>
      have hhere : (c :: more).isPrefixOf (c :: (more ++ rest)) = true :=
        List.isPrefixOf_iff_prefix.mpr (List.prefix_append (c :: more) rest)
      rw [List.cons_append, eraseFrom, if_pos hhere]
      exact eraseFrom_append more rest

theorem eraseFrom_cons_of_not_standing {c : Char} {rest : List Char} (hword : ¬ word <+: c :: rest) :
    eraseFrom word 0 (c :: rest) = c :: eraseFrom word 0 rest := by
  rw [eraseFrom, if_neg fun h => hword (List.isPrefixOf_iff_prefix.mp h)]

/-- A pass over a text: it keeps a character where the word does not stand, and leaves the word out
where it does. -/
inductive Pass (word : List Char) : List Char → List Char → Prop where
  | done : Pass word [] []
  | keep {c : Char} {rest kept : List Char} :
      ¬ word <+: c :: rest → Pass word rest kept → Pass word (c :: rest) (c :: kept)
  | drop {rest kept : List Char} : Pass word rest kept → Pass word (word ++ rest) kept

theorem pass_eraseFrom (hword : word ≠ []) (text : List Char) :
    Pass word text (eraseFrom word 0 text) := by
  induction hlength : text.length using Nat.strongRecOn generalizing text with
  | ind n ih =>
      subst hlength
      cases text with
      | nil => exact .done
      | cons c rest =>
          by_cases hhere : word <+: c :: rest
          · obtain ⟨after, hafter⟩ := hhere
            rw [← hafter, eraseFrom_word_append hword]
            refine .drop (ih _ ?_ after rfl)
            rw [← hafter, List.length_append]
            exact Nat.lt_add_of_pos_left (List.length_pos_iff.mpr hword)
          · rw [eraseFrom_cons_of_not_standing hhere]
            exact .keep hhere (ih _ (Nat.lt_succ_self _) rest rfl)

/-! ## Qualifiers -/

/-- A qualifier: the parentheses hold something, but nothing that closes them. -/
def IsQualifier (piece : List Char) : Prop :=
  ∃ inner, inner ≠ [] ∧ ')' ∉ inner ∧ piece = "import(".toList ++ inner ++ ").".toList

theorem exists_qualifier {cs rest : List Char} (hrest : afterQualifier? cs = some rest) :
    ∃ piece, IsQualifier piece ∧ cs = piece ++ rest := by
  unfold afterQualifier? at hrest
  split at hrest
  · next himport =>
      obtain ⟨inside, hinside⟩ := List.isPrefixOf_iff_prefix.mp himport
      have hdrop : cs.drop 7 = inside := by
        rw [← hinside]
        rfl
      dsimp only at hrest
      rw [hdrop] at hrest
      split at hrest
      · next c more after hinner hafter =>
          cases hrest
          refine ⟨"import(".toList ++ (c :: more) ++ ").".toList,
            ⟨c :: more, List.cons_ne_nil _ _, fun hclosed => ?_, rfl⟩, ?_⟩
          · rw [← hinner] at hclosed
            simpa using List.mem_takeWhile_imp hclosed
          · have hclose : inside = (c :: more) ++ ')' :: '.' :: rest := by
              rw [← hinner, ← hafter, List.takeWhile_append_dropWhile]
            rw [← hinside, hclose]
            simp
      · cases hrest
  · cases hrest

/-! ## What is left -/

/-- Some pieces of a text are left out, and what is left stays in order. -/
structure Accounted (pieces : List (List Char)) (text kept : List Char) : Prop where
  sublist : kept.Sublist text
  perm : text.Perm (kept ++ pieces.flatten)

namespace Accounted

variable {pieces more : List (List Char)} {rest : List Char}

theorem nothing (text : List Char) : Accounted [] text text := ⟨List.Sublist.refl _, by simp⟩

theorem keep (c : Char) (hrest : Accounted pieces rest kept) :
    Accounted pieces (c :: rest) (c :: kept) :=
  ⟨hrest.sublist.cons_cons c, hrest.perm.cons c⟩

theorem drop (piece : List Char) (hrest : Accounted pieces rest kept) :
    Accounted (piece :: pieces) (piece ++ rest) kept where
  sublist := hrest.sublist.trans (List.sublist_append_right _ _)
  perm := by
    rw [List.flatten_cons, ← List.append_assoc]
    refine (hrest.perm.append_left piece).trans ?_
    rw [← List.append_assoc]
    exact List.perm_append_comm.append_right _

theorem trans (hfirst : Accounted pieces text rest) (hsecond : Accounted more rest kept) :
    Accounted (more ++ pieces) text kept where
  sublist := hsecond.sublist.trans hfirst.sublist
  perm := by
    rw [List.flatten_append, ← List.append_assoc]
    exact hfirst.perm.trans (hsecond.perm.append_right _)

end Accounted

theorem exists_accounted_dropQualifiers (cs : List Char) :
    ∃ pieces, Accounted pieces cs (dropQualifiers cs) ∧ ∀ piece ∈ pieces, IsQualifier piece := by
  unfold dropQualifiers
  generalize cs.length = fuel
  fun_induction dropQualifiersWith fuel cs with
  | case1 cs => exact ⟨[], .nothing cs, by simp⟩
  | case2 => exact ⟨[], .nothing [], by simp⟩
  | case3 fuel c cs rest hrest ih =>
      obtain ⟨piece, hpiece, hsplit⟩ := exists_qualifier hrest
      obtain ⟨pieces, haccounted, hpieces⟩ := ih
      rw [hsplit]
      exact ⟨piece :: pieces, haccounted.drop piece, List.forall_mem_cons.mpr ⟨hpiece, hpieces⟩⟩
  | case4 fuel c cs _ ih =>
      obtain ⟨pieces, haccounted, hpieces⟩ := ih
      exact ⟨pieces, haccounted.keep c, hpieces⟩

theorem exists_accounted_erase (word text : List Char) :
    ∃ pieces, Accounted pieces text (erase word text) ∧ ∀ piece ∈ pieces, piece = word := by
  unfold erase
  split
  · exact ⟨[], .nothing text, by simp⟩
  · next hword =>
      have hpass := pass_eraseFrom (fun hnil => hword (List.isEmpty_iff.mpr hnil)) text
      generalize eraseFrom word 0 text = kept at hpass
      induction hpass with
      | done => exact ⟨[], .nothing [], by simp⟩
      | @keep c _ _ _ _ ih =>
          obtain ⟨pieces, haccounted, hpieces⟩ := ih
          exact ⟨pieces, haccounted.keep c, hpieces⟩
      | drop _ ih =>
          obtain ⟨pieces, haccounted, hpieces⟩ := ih
          exact ⟨word :: pieces, haccounted.drop word, List.forall_mem_cons.mpr ⟨rfl, hpieces⟩⟩

/-- A text without its qualifiers and without some words, one after the other. -/
def bare (words : List (List Char)) (text : List Char) : List Char :=
  words.foldl (fun cs word => erase word cs) (dropQualifiers text)

theorem display_eq (namespaces : List String) (text : String) :
    display namespaces text =
      String.ofList (Text.collapse (bare (namespaces.map String.toList) text.toList)) := by
  rw [display, bare, List.foldl_map]

/-- **What is left of a text is the text in its order, less qualifiers and whole words.** -/
theorem exists_accounted (words : List (List Char)) (text : List Char) :
    ∃ pieces, Accounted pieces text (bare words text) ∧
      ∀ piece ∈ pieces, IsQualifier piece ∨ piece ∈ words := by
  obtain ⟨qualifiers, hqualifiers, hmem⟩ := exists_accounted_dropQualifiers text
  unfold bare
  generalize dropQualifiers text = unqualified at hqualifiers
  -- the words that are left out pass by pass come before the pieces left out already
  suffices h : ∀ (pieces : List (List Char)) (current : List Char),
      Accounted pieces text current →
        ∃ more, Accounted (more ++ pieces) text
            (words.foldl (fun cs word => erase word cs) current) ∧
          ∀ piece ∈ more, piece ∈ words by
    obtain ⟨more, haccounted, hwords⟩ := h qualifiers unqualified hqualifiers
    exact ⟨_, haccounted, List.forall_mem_append.mpr ⟨fun piece hpiece => .inr (hwords piece hpiece),
      fun piece hpiece => .inl (hmem piece hpiece)⟩⟩
  clear hqualifiers hmem
  induction words with
  | nil => exact fun pieces current h => ⟨[], h, by simp⟩
  | cons word words ih =>
      intro pieces current h
      obtain ⟨dropped, hdropped, hsame⟩ := exists_accounted_erase word current
      obtain ⟨more, haccounted, hwords⟩ := ih _ _ (h.trans hdropped)
      refine ⟨more ++ dropped, by simpa using haccounted, List.forall_mem_append.mpr ⟨?_, ?_⟩⟩
      · exact fun piece hpiece => List.mem_cons_of_mem _ (hwords piece hpiece)
      · exact fun piece hpiece => hsame piece hpiece ▸ List.mem_cons_self

/-! ## What is meant to be left out -/

/-- Whether a character is part of a qualified name; which ones are letters is left open. -/
def isNamePart (letter : Char → Bool) (c : Char) : Bool :=
  letter c || c.isDigit || c = '_' || c = '$' || c = '.'

/-- Whether a qualified name can begin behind a text, given from its last character on. -/
def begins (letter : Char → Bool) (before : List Char) : Bool :=
  before.head?.all fun c => !isNamePart letter c

/-- What may be left of a text that stands behind another one, the latter given from its last
character on: the text in its order, less qualifiers and words with which a qualified name
begins. -/
inductive Stripped (letter : Char → Bool) (words : List (List Char)) :
    List Char → List Char → List Char → Prop where
  | done {before : List Char} : Stripped letter words before [] []
  | keep {before rest kept : List Char} {c : Char} :
      Stripped letter words (c :: before) rest kept →
        Stripped letter words before (c :: rest) (c :: kept)
  | qualifier {before piece rest kept : List Char} : IsQualifier piece →
      Stripped letter words (piece.reverse ++ before) rest kept →
        Stripped letter words before (piece ++ rest) kept
  | word {before word rest kept : List Char} : word ∈ words → begins letter before →
      Stripped letter words (word.reverse ++ before) rest kept →
        Stripped letter words before (word ++ rest) kept

/-- Whether a displayed type is as it is meant to be: the text, less what may be left out of it. -/
def Promised (letter : Char → Bool) (namespaces : List String) (text shown : String) : Prop :=
  ∃ kept, Stripped letter (namespaces.map String.toList) [] text.toList kept ∧
    shown = String.ofList (Text.collapse kept)

/-- Whether a piece stands in a text only where a qualified name begins. -/
def OnlyBegins (letter : Char → Bool) (piece text : List Char) : Prop :=
  ∀ front back, text = front ++ piece ++ back → begins letter front.reverse

/-- Namespaces of name parts that, just as the qualifiers, stand in a text only where qualified
names begin. -/
structure Harmless (letter : Char → Bool) (words : List (List Char)) (text : List Char) :
    Prop where
  ne_nil : ∀ word ∈ words, word ≠ []
  parts : ∀ word ∈ words, ∀ c ∈ word, isNamePart letter c
  words_begin : ∀ word ∈ words, OnlyBegins letter word text
  qualifiers_begin : ∀ piece, IsQualifier piece → OnlyBegins letter piece text

namespace Stripped

/-- Right behind a part of a name, what is left of name parts is those parts themselves. -/
theorem exists_append {c : Char} {rest : List Char} (hc : isNamePart letter c)
    (hword : ∀ d ∈ word, isNamePart letter d)
    (hqualifiers : ∀ piece, IsQualifier piece →
      OnlyBegins letter piece ((c :: before).reverse ++ text))
    (hstripped : Stripped letter words (c :: before) text (word ++ rest)) :
    ∃ after, text = word ++ after ∧
      Stripped letter words (word.reverse ++ c :: before) after rest := by
  have hnot : ¬ begins letter (c :: before) = true := by simp [begins, hc]
  induction word generalizing c before text with
  | nil => exact ⟨text, rfl, hstripped⟩
  | cons d word ih =>
      rw [List.forall_mem_cons] at hword
      generalize hkept : d :: word ++ rest = kept at hstripped
      cases hstripped with
      | done => cases hkept
      | @keep _ after _ _ hafter =>
          cases hkept
          have hd : ¬ begins letter (d :: c :: before) = true := by simp [begins, hword.1]
          obtain ⟨more, rfl, hmore⟩ := ih hword.1 hword.2 (by simpa using hqualifiers) hafter hd
          exact ⟨more, rfl, by simpa using hmore⟩
      | @qualifier _ piece after _ hpiece _ =>
          refine absurd (hqualifiers piece hpiece (c :: before).reverse after ?_) ?_
          · rw [List.append_assoc]
          · rwa [List.reverse_reverse]
      | word _ hbegins _ => exact absurd hbegins hnot

/-- **One more pass** over what is left of a text leaves out what may be left out. -/
theorem pass (hmem : word ∈ words) (hne : ∀ word ∈ words, word ≠ [])
    (hparts : ∀ c ∈ word, isNamePart letter c)
    (hword : OnlyBegins letter word (before.reverse ++ text))
    (hqualifiers : ∀ piece, IsQualifier piece →
      OnlyBegins letter piece (before.reverse ++ text))
    (hstripped : Stripped letter words before text kept) :
    Stripped letter words before text (eraseFrom word 0 kept) := by
  induction hlength : text.length using Nat.strongRecOn generalizing before text kept with
  | ind n ih =>
      subst hlength
      -- what is behind a piece is shorter, and the whole text stays the same
      have hbehind {piece rest kept : List Char} (hpiece : piece ≠ [])
          (htext : text = piece ++ rest) (hrest : Stripped letter words (piece.reverse ++ before) rest kept) :
          Stripped letter words (piece.reverse ++ before) rest (eraseFrom word 0 kept) := by
        have hwhole : (piece.reverse ++ before).reverse ++ rest = before.reverse ++ text := by
          simp [htext]
        refine ih _ ?_ (hwhole ▸ hword) (fun q hq => hwhole ▸ hqualifiers q hq) hrest rfl
        rw [htext, List.length_append]
        exact Nat.lt_add_of_pos_left (List.length_pos_iff.mpr hpiece)
      generalize hsame : text = whole at hstripped
      cases hstripped with
      | done => exact .done
      | @keep _ rest kept c hrest =>
          by_cases hhere : word <+: c :: kept
          · obtain ⟨left, hleft⟩ := hhere
            rw [← hleft, eraseFrom_word_append (hne word hmem)]
            cases word with
            | nil => exact absurd rfl (hne [] hmem)
            | cons d more =>
                cases hleft
                rw [List.forall_mem_cons] at hparts
                -- nothing has been left out within the word, so it stands in the text
                obtain ⟨after, rfl, hafter⟩ :=
                  exists_append hparts.1 hparts.2 (by simpa [← hsame] using hqualifiers) hrest
                have hbegins := hword before.reverse after (by simp [hsame])
                rw [List.reverse_reverse] at hbegins
                show Stripped letter words before (c :: more ++ after) _
                exact .word hmem hbegins (hbehind (by simp) hsame (by simpa using hafter))
          · have hlater : Stripped letter words ([c].reverse ++ before) rest
                (eraseFrom word 0 kept) := hbehind (by simp) hsame hrest
            rw [eraseFrom_cons_of_not_standing hhere]
            exact .keep hlater
      | @qualifier _ piece rest _ hpiece hrest =>
          have hne : piece ≠ [] := by
            obtain ⟨inner, -, -, rfl⟩ := hpiece
            simp
          exact .qualifier hpiece (hbehind hne hsame hrest)
      | @word _ other rest _ hother hbegins hrest =>
          exact .word hother hbegins (hbehind (hne other hother) hsame hrest)

theorem refl (before text : List Char) : Stripped letter words before text text := by
  induction text generalizing before with
  | nil => exact .done
  | cons c rest ih => exact .keep (ih _)

theorem dropQualifiers (before text : List Char) :
    Stripped letter words before text (TypeText.dropQualifiers text) := by
  unfold TypeText.dropQualifiers
  generalize text.length = fuel
  fun_induction dropQualifiersWith fuel text generalizing before with
  | case1 cs => exact .refl before cs
  | case2 => exact .done
  | case3 fuel c cs rest hrest ih =>
      obtain ⟨piece, hpiece, hsplit⟩ := exists_qualifier hrest
      rw [hsplit]
      exact .qualifier hpiece (ih _)
  | case4 fuel c cs _ ih => exact .keep (ih _)

end Stripped

/-- **Harmless namespaces are left out just where they are meant to be.** -/
theorem Harmless.stripped_bare (hharmless : Harmless letter words text) :
    Stripped letter words [] text (bare words text) := by
  unfold bare
  suffices h : ∀ more ⊆ words, ∀ current, Stripped letter words [] text current →
      Stripped letter words [] text (more.foldl (fun cs word => erase word cs) current) from
    h words (List.Subset.refl words) _ (.dropQualifiers [] text)
  intro more
  induction more with
  | nil => exact fun _ _ hcurrent => hcurrent
  | cons word more ih =>
      intro hmore current hcurrent
      rw [List.cons_subset] at hmore
      have hword : erase word current = eraseFrom word 0 current := by
        rw [erase, if_neg]
        simpa using hharmless.ne_nil word hmore.1
      rw [List.foldl_cons, hword]
      exact ih hmore.2 _ (hcurrent.pass hmore.1 hharmless.ne_nil (hharmless.parts word hmore.1)
        (hharmless.words_begin word hmore.1) hharmless.qualifiers_begin)

end ComponentDocs.TypeText
