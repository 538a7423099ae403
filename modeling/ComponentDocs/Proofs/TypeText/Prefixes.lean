import ComponentDocs.Proofs.Text.Trimming
import ComponentDocs.Proofs.TypeText.Stripping

/-!
# Namespaces that are no prefixes

The usual namespaces are identifiers with a dot behind them.  Of a text without qualifiers, what is
displayed is as it is meant to be just if no such namespace stands right behind a part of a name
(`promised_iff`): there it is left out, too, although no qualified name begins with it.

To see this, count dots.  Each namespace that stands in the text ends at a dot, and this dot is gone
at the end: a pass for another namespace neither cuts into one nor brings two of them together
without taking away such a dot (`Pass.dots_le`).  What may be left out takes away only those dots at
which a leading namespace ends (`Stripped.dots_le`).
-/

namespace ComponentDocs.TypeText

variable {letter : Char → Bool} {words : List (List Char)} {word before after text kept : List Char}

/-! ## Dots -/

/-- The number of dots that are the last character of a text with a property, the text given from
its last character on; the first argument is what stands before the second. -/
def dotsWith (p : List Char → Bool) : List Char → List Char → ℕ
  | _, [] => 0
  | before, c :: rest =>
    (if c = '.' ∧ p (c :: before) then 1 else 0) + dotsWith p (c :: before) rest

theorem dotsWith_append (p : List Char → Bool) (before front back : List Char) :
    dotsWith p before (front ++ back) =
      dotsWith p before front + dotsWith p (front.reverse ++ before) back := by
  induction front generalizing before with
  | nil => simp [dotsWith]
  | cons c front ih => simp [dotsWith, ih, Nat.add_assoc]

theorem dotsWith_eq_zero {p : List Char → Bool} (htext : '.' ∉ text) :
    dotsWith p before text = 0 := by
  induction text generalizing before with
  | nil => rfl
  | cons c rest ih =>
      rw [List.mem_cons, not_or] at htext
      simp [dotsWith, Ne.symm htext.1, ih htext.2]

theorem dotsWith_mono {p q : List Char → Bool} (hpq : ∀ upTo, p upTo → q upTo) :
    dotsWith p before text ≤ dotsWith q before text := by
  induction text generalizing before with
  | nil => exact Nat.le_refl _
  | cons c rest ih =>
      refine Nat.add_le_add ?_ ih
      by_cases hdot : c = '.' ∧ p (c :: before)
      · rw [if_pos hdot, if_pos ⟨hdot.1, hpq _ hdot.2⟩]
      · rw [if_neg hdot]
        exact Nat.zero_le _

/-- If the weaker property counts no more dots, it is the stronger one at every dot. -/
theorem of_dotsWith_le {p q : List Char → Bool} (hpq : ∀ upTo, p upTo → q upTo)
    (hle : dotsWith q before text ≤ dotsWith p before text) {front back : List Char}
    (htext : text = front ++ '.' :: back) (hq : q ('.' :: (front.reverse ++ before))) :
    p ('.' :: (front.reverse ++ before)) := by
  subst htext
  by_contra hp
  have hfront : dotsWith p before front ≤ dotsWith q before front := dotsWith_mono hpq
  have hback : dotsWith p ('.' :: (front.reverse ++ before)) back ≤
      dotsWith q ('.' :: (front.reverse ++ before)) back := dotsWith_mono hpq
  simp only [dotsWith_append, dotsWith, hq, hp, and_true, and_false, if_true, if_false] at hle
  simp at hle
  omega

/-! ## Namespaces end at dots -/

/-- A name with a dot behind it, and none within it. -/
def Dotted (word : List Char) : Prop := ∃ name, name ≠ [] ∧ '.' ∉ name ∧ word = name ++ ['.']

theorem count_dotted_append {name : List Char} (hname : '.' ∉ name) (rest : List Char) :
    (name ++ ['.'] ++ rest).count '.' = 1 + rest.count '.' := by
  rw [List.append_assoc, List.count_append, List.count_eq_zero.mpr hname, Nat.zero_add,
    List.singleton_append, List.count_cons_self, Nat.add_comm]

theorem dotsWith_dotted_append {name : List Char} (hname : '.' ∉ name) (p : List Char → Bool)
    (before rest : List Char) :
    dotsWith p before (name ++ ['.'] ++ rest) =
      (if p ('.' :: (name.reverse ++ before)) then 1 else 0) +
        dotsWith p ('.' :: (name.reverse ++ before)) rest := by
  rw [List.append_assoc, dotsWith_append, dotsWith_eq_zero hname, Nat.zero_add,
    List.singleton_append, dotsWith]
  simp

/-- Whether a text, given from its last character on, ends with one of the words. -/
def ends (words : List (List Char)) (upTo : List Char) : Bool :=
  words.any fun word => word.reverse.isPrefixOf upTo

/-- Whether a text, given from its last character on, ends with one of the words, and a qualified
name begins there. -/
def endsLeading (letter : Char → Bool) (words : List (List Char)) (upTo : List Char) : Bool :=
  words.any fun word => word.reverse.isPrefixOf upTo && begins letter (upTo.drop word.length)

theorem ends_iff {upTo : List Char} :
    ends words upTo ↔ ∃ word ∈ words, word.reverse <+: upTo := by
  simp [ends]

theorem dotsWith_ends_nil (before text : List Char) : dotsWith (ends []) before text = 0 := by
  induction text generalizing before with
  | nil => rfl
  | cons c rest ih => simp [dotsWith, ends, ih]

theorem endsLeading_iff {upTo : List Char} :
    endsLeading letter words upTo ↔
      ∃ word ∈ words, word.reverse <+: upTo ∧ begins letter (upTo.drop word.length) := by
  simp [endsLeading]

theorem ends_of_endsLeading {upTo : List Char} (h : endsLeading letter words upTo) :
    ends words upTo := by
  obtain ⟨word, hword, hends, -⟩ := endsLeading_iff.mp h
  exact ends_iff.mpr ⟨word, hword, hends⟩

/-- What stands behind the last dot of a text, the text given from its last character on. -/
def run (before : List Char) : List Char := before.takeWhile (· ≠ '.')

theorem run_dot (before : List Char) : run ('.' :: before) = [] := rfl

theorem run_cons {c : Char} (hc : c ≠ '.') (before : List Char) :
    run (c :: before) = c :: run before := by simp [run, hc]

theorem prefix_run_iff {name : List Char} (hname : '.' ∉ name) :
    name <+: run before ↔ name <+: before := by
  refine ⟨fun h => h.trans (List.takeWhile_prefix _), fun h => ?_⟩
  obtain ⟨rest, rfl⟩ := h
  rw [run, List.takeWhile_append_of_pos]
  · exact List.prefix_append _ _
  · exact fun c hc => decide_eq_true (ne_of_mem_of_not_mem hc hname)

/-- A name stands within what is behind the last dot, so nothing else matters for it. -/
theorem reverse_prefix_iff {name : List Char} (hname : '.' ∉ name) :
    (name ++ ['.']).reverse <+: '.' :: before ↔ name.reverse <+: run before := by
  rw [prefix_run_iff (by simpa using hname)]
  simp

theorem ends_of_prefix_run (hwords : ∀ word ∈ words, Dotted word) (hrun : run before <+: after)
    (hends : ends words ('.' :: before)) : ends words ('.' :: after) := by
  obtain ⟨word, hword, hprefix⟩ := ends_iff.mp hends
  obtain ⟨name, -, hname, rfl⟩ := hwords word hword
  refine ends_iff.mpr ⟨_, hword, (reverse_prefix_iff hname).mpr ?_⟩
  rw [prefix_run_iff (by simpa using hname)]
  exact ((reverse_prefix_iff hname).mp hprefix).trans hrun

/-! ## What a pass takes away -/

/-- Behind the last dot of a text no word has begun that goes on in the text behind it. -/
def NotBegun (word before text : List Char) : Prop :=
  ∀ front back, run before = front ++ back → front ≠ [] → ¬ word <+: front.reverse ++ text

theorem notBegun_of_run_eq_nil (hrun : run before = []) : NotBegun word before text := by
  intro front back hsplit hfront
  rw [hrun] at hsplit
  exact absurd (List.append_eq_nil_iff.mp hsplit.symm).1 hfront

theorem NotBegun.cons {c : Char} (hnone : NotBegun word before (c :: text)) (hc : c ≠ '.')
    (hhere : ¬ word <+: c :: text) : NotBegun word (c :: before) text := by
  intro front back hsplit hfront
  rw [run_cons hc] at hsplit
  cases front with
  | nil => exact absurd rfl hfront
  | cons d front =>
      rw [List.cons_append, List.cons.injEq] at hsplit
      obtain ⟨rfl, hsplit⟩ := hsplit
      rw [List.reverse_cons, List.append_assoc, List.singleton_append]
      by_cases hmore : front = []
      · simpa [hmore] using hhere
      · exact hnone front back hsplit hmore

/-- **A pass takes away all dots at which its word ends**, and others end where they did. -/
theorem Pass.dots_le (hpass : Pass word text kept) (hword : Dotted word)
    (hwords : ∀ other ∈ words, Dotted other) (hrun : run before <+: after)
    (hnone : NotBegun word before text) :
    dotsWith (ends (word :: words)) before text + kept.count '.' ≤
      text.count '.' + dotsWith (ends words) after kept := by
  obtain ⟨name, hname, hdots, rfl⟩ := hword
  induction hpass generalizing before after with
  | done => simp [dotsWith]
  | @keep c rest kept hhere hrest ih =>
      by_cases hc : c = '.'
      · subst hc
        have hbehind : run ('.' :: before) <+: '.' :: after := List.nil_prefix
        have hrest := ih hbehind (notBegun_of_run_eq_nil (run_dot before))
        -- the word cannot end here, for then it would have been left out before
        have hother (hends : ends ((name ++ ['.']) :: words) ('.' :: before)) :
            ends words ('.' :: after) := by
          obtain ⟨other, hmem, hprefix⟩ := ends_iff.mp hends
          rcases List.mem_cons.mp hmem with rfl | hmem
          · obtain ⟨back, hback⟩ := (reverse_prefix_iff hdots).mp hprefix
            refine absurd ?_ (hnone name.reverse back hback.symm (by simpa using hname))
            simp
          · exact ends_of_prefix_run hwords hrun (ends_iff.mpr ⟨other, hmem, hprefix⟩)
        have hdot : (if ends ((name ++ ['.']) :: words) ('.' :: before) then 1 else 0) ≤
            if ends words ('.' :: after) then 1 else 0 := by
          split
          · next hends => rw [if_pos (hother hends)]
          · exact Nat.zero_le _
        simp only [dotsWith, true_and, List.count_cons_self]
        omega
      · have hbehind : run (c :: before) <+: c :: after := by
          rw [run_cons hc]
          exact List.cons_prefix_cons.mpr ⟨rfl, hrun⟩
        have hrest := ih hbehind (hnone.cons hc hhere)
        simpa [dotsWith, hc] using hrest
  | @drop rest kept hrest ih =>
      have hbehind : run ('.' :: (name.reverse ++ before)) <+: after := List.nil_prefix
      have hrest := ih hbehind (notBegun_of_run_eq_nil (run_dot _))
      rw [dotsWith_dotted_append hdots, count_dotted_append hdots]
      split <;> omega

/-- After all passes, no dot is left at which a word ended. -/
theorem dots_foldl_erase_le (hwords : ∀ word ∈ words, Dotted word) (text : List Char) :
    dotsWith (ends words) [] text + (words.foldl (fun cs word => erase word cs) text).count '.' ≤
      text.count '.' := by
  induction words generalizing text with
  | nil =>
      rw [dotsWith_ends_nil, Nat.zero_add]
      exact Nat.le_refl _
  | cons word words ih =>
      rw [List.forall_mem_cons] at hwords
      have hne : word ≠ [] := by
        obtain ⟨name, -, -, rfl⟩ := hwords.1
        simp
      have hrun : run [] <+: ([] : List Char) := List.prefix_refl []
      have hpass := (pass_eraseFrom hne text).dots_le hwords.1 hwords.2 hrun
        (notBegun_of_run_eq_nil rfl)
      have hrest := ih hwords.2 (eraseFrom word 0 text)
      rw [List.foldl_cons, erase, if_neg (by simpa using hne)]
      omega

theorem Stripped.dots_le (hstripped : Stripped letter words before text kept)
    (hwords : ∀ word ∈ words, Dotted word) (himport : ¬ "import(".toList <:+: text) :
    text.count '.' ≤ kept.count '.' + dotsWith (endsLeading letter words) before text := by
  induction hstripped with
  | done => exact Nat.zero_le _
  | @keep before rest kept c _ ih =>
      have hrest := ih fun h => himport (h.trans (List.suffix_cons c rest).isInfix)
      simp only [dotsWith, List.count_cons]
      omega
  | @qualifier before piece rest kept hpiece _ _ =>
      obtain ⟨inner, -, -, rfl⟩ := hpiece
      exact absurd ⟨[], inner ++ ").".toList ++ rest, by simp⟩ himport
  | @word before word rest kept hword hbegins _ ih =>
      have hrest := ih fun h => himport (h.trans (List.suffix_append word rest).isInfix)
      obtain ⟨name, -, hname, rfl⟩ := hwords word hword
      have hends : endsLeading letter words ('.' :: (name.reverse ++ before)) :=
        endsLeading_iff.mpr ⟨_, hword, by simp, by simpa using hbegins⟩
      have hsame : (name ++ ['.']).reverse ++ before = '.' :: (name.reverse ++ before) := by simp
      rw [hsame] at hrest
      rw [count_dotted_append hname, dotsWith_dotted_append hname, if_pos hends]
      omega

/-! ## As it is meant to be -/

/-- The usual namespaces: names with a dot behind them, none of which ends with another one. -/
structure Usual (letter : Char → Bool) (words : List (List Char)) : Prop where
  dotted : ∀ word ∈ words, Dotted word
  parts : ∀ word ∈ words, ∀ c ∈ word, isNamePart letter c
  not_suffix : ∀ word ∈ words, ∀ other ∈ words, word <:+ other → word = other

theorem dropQualifiers_eq_self (himport : ¬ "import(".toList <:+: text) :
    dropQualifiers text = text := by
  unfold dropQualifiers
  generalize text.length = fuel
  fun_induction dropQualifiersWith fuel text with
  | case1 => rfl
  | case2 => rfl
  | case3 fuel c cs rest hrest _ =>
      obtain ⟨piece, ⟨inner, -, -, rfl⟩, hsplit⟩ := exists_qualifier hrest
      exact absurd ⟨[], inner ++ ").".toList ++ rest, by simp [hsplit]⟩ himport
  | case4 fuel c cs _ ih =>
      rw [ih fun h => himport (h.trans (List.suffix_cons c cs).isInfix)]

/-- **The usual namespaces are left out as they are meant to be just if they stand only where
qualified names begin.** -/
theorem promised_iff {namespaces : List String} {text : String}
    (husual : Usual letter (namespaces.map String.toList))
    (himport : ¬ "import(".toList <:+: text.toList) :
    Promised letter namespaces text (display namespaces text) ↔
      ∀ word ∈ namespaces.map String.toList, OnlyBegins letter word text.toList := by
  rw [display_eq]
  unfold Promised
  generalize namespaces.map String.toList = words at husual ⊢
  constructor
  · rintro ⟨kept, hstripped, hshown⟩ word hword front back htext
    have hdots : (bare words text.toList).count '.' = kept.count '.' := by
      have hcollapse := String.ofList_injective hshown
      rw [← Text.count_collapse (by decide), hcollapse, Text.count_collapse (by decide)]
    have hgone := dots_foldl_erase_le husual.dotted text.toList
    have hkept := hstripped.dots_le husual.dotted himport
    rw [bare, dropQualifiers_eq_self himport] at hdots
    have hle : dotsWith (ends words) [] text.toList ≤
        dotsWith (endsLeading letter words) [] text.toList := by omega
    obtain ⟨name, -, -, rfl⟩ := husual.dotted word hword
    -- a namespace with which a qualified name begins ends at the same dot
    have hupTo : (name ++ ['.']).reverse ++ front.reverse =
        '.' :: ((front ++ name).reverse ++ []) := by simp
    have hends : ends words ('.' :: ((front ++ name).reverse ++ [])) :=
      ends_iff.mpr ⟨_, hword, hupTo ▸ List.prefix_append _ _⟩
    have hleading : endsLeading letter words ('.' :: ((front ++ name).reverse ++ [])) :=
      of_dotsWith_le (fun _ => ends_of_endsLeading) hle (by simpa using htext) hends
    obtain ⟨other, hother, hprefix, hbegins⟩ := endsLeading_iff.mp hleading
    rw [← hupTo] at hprefix hbegins
    have hsame : other = name ++ ['.'] := by
      rcases List.prefix_or_prefix_of_prefix hprefix (List.prefix_append _ front.reverse) with h | h
      · exact husual.not_suffix _ hother _ hword (List.reverse_prefix.mp h)
      · exact (husual.not_suffix _ hword _ hother (List.reverse_prefix.mp h)).symm
    rwa [hsame, ← List.length_reverse, List.drop_left] at hbegins
  · intro hbegins
    refine ⟨_, Harmless.stripped_bare ⟨fun word hword => ?_, husual.parts, hbegins, ?_⟩, rfl⟩
    · obtain ⟨name, -, -, rfl⟩ := husual.dotted word hword
      simp
    · rintro piece ⟨inner, -, -, rfl⟩ front back htext
      exact absurd ⟨front, inner ++ ").".toList ++ back, by simp [htext]⟩ himport

/-- **What is left out of a displayed type.**  It is made of the characters of the text in their
order, less qualifiers, whole namespaces and blanks.  If all namespaces are made of parts of names,
and if these and the qualifiers stand in the text only where qualified names begin, then nothing is
left out but what is meant to be: qualifiers, and namespaces with which qualified names begin.  For
the usual namespaces and a text without qualifiers, this is so in no other case. -/
theorem display_accounted (letter : Char → Bool) (namespaces : List String) (text : String) :
    let words := namespaces.map String.toList
    (∃ kept pieces, Accounted pieces text.toList kept ∧
      (∀ piece ∈ pieces, IsQualifier piece ∨ piece ∈ words) ∧
      display namespaces text = String.ofList (Text.collapse kept)) ∧
    (Harmless letter words text.toList →
      Promised letter namespaces text (display namespaces text)) ∧
    (Usual letter words → ¬ "import(".toList <:+: text.toList →
      (Promised letter namespaces text (display namespaces text) ↔
        ∀ word ∈ words, OnlyBegins letter word text.toList)) := by
  intro words
  refine ⟨?_, fun hharmless => ?_, promised_iff⟩
  · obtain ⟨pieces, haccounted, hpieces⟩ := exists_accounted words text.toList
    exact ⟨_, pieces, haccounted, hpieces, display_eq namespaces text⟩
  · exact ⟨_, hharmless.stripped_bare, display_eq namespaces text⟩

theorem usual_react : Usual Char.isAlpha (["React."].map String.toList) where
  dotted := by
    rw [List.map_singleton, List.forall_mem_singleton]
    exact ⟨"React".toList, by decide, by decide +kernel, by decide +kernel⟩
  parts := by
    rw [List.map_singleton, List.forall_mem_singleton]
    exact List.all_eq_true.mp (by decide)
  not_suffix := by simp

/-- A name that ends with a namespace is cut in two. -/
theorem merged_not_promised :
    display ["React."] "MyReact.Node" = "MyNode" ∧
      ¬ Promised Char.isAlpha ["React."] "MyReact.Node" (display ["React."] "MyReact.Node") := by
  refine ⟨by decide +kernel, fun hpromised => ?_⟩
  rw [promised_iff usual_react (by decide +kernel)] at hpromised
  have hbegins := hpromised "React.".toList (by simp) "My".toList "Node".toList (by decide)
  exact absurd hbegins (by decide)

end ComponentDocs.TypeText
