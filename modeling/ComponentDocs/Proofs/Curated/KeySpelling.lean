import ComponentDocs.Curated
import ComponentDocs.Proofs.Text.LowerCase

/-!
# The spellings of a key

The keys of a curated record may be written in camel case, in Pascal case or in snake case.  All
three spellings of the same words have the same normal key, and a normal key is its own normal key
(`spellings_of_key`).

The words are joined by rules of their own (`camelJoined`, `pascalJoined`, `snakeJoined`), which
know nothing of how a key is taken apart.  That a normal key stays as it is holds of every text: in
lower case no capital letter is left to split at, and lower case is reached at once.
-/

namespace ComponentDocs.Curated

/-! ## Words -/

/-- A small letter or a digit of ASCII. -/
def isWordChar (c : Char) : Bool := c.isLower || c.isDigit

/-- A word of a key: a small letter, and after it small letters and digits. -/
structure KeyWord where
  first : Char
  rest : List Char
  isLower_first : first.isLower = true
  all_rest : rest.all isWordChar = true

namespace KeyWord

/-- The word as it is. -/
def small (w : KeyWord) : List Char := w.first :: w.rest

/-- The word with a capital letter at its start. -/
def capitalized (w : KeyWord) : List Char := w.first.toUpper :: w.rest

end KeyWord

/-- The words with an underscore between them. -/
def snakeJoined (words : List KeyWord) : String :=
  String.ofList (['_'].intercalate (words.map KeyWord.small))

/-- The words behind each other, each with a capital letter. -/
def pascalJoined (words : List KeyWord) : String :=
  String.ofList (words.flatMap KeyWord.capitalized)

/-- The words behind each other, all but the first with a capital letter. -/
def camelJoined : List KeyWord → String
  | [] => ""
  | w :: more => String.ofList (w.small ++ more.flatMap KeyWord.capitalized)

variable {c : Char} {cs : List Char} {key : String}

/-! ## Splitting at capital letters -/

theorem splitCamel_cons (c : Char) (cs : List Char) :
    splitCamel (c :: cs) = if c.isUpper then '_' :: c :: splitCamel cs else c :: splitCamel cs := by
  have hcapital : (decide ('A' ≤ c) && decide (c ≤ 'Z')) = c.isUpper := by
    simp [Char.isUpper, Char.le_def]
  rw [splitCamel, hcapital]

theorem splitCamel_append (cs ds : List Char) :
    splitCamel (cs ++ ds) = splitCamel cs ++ splitCamel ds := by
  induction cs with
  | nil => rfl
  | cons c rest ih =>
      rw [List.cons_append, splitCamel_cons, splitCamel_cons, ih]
      split <;> rfl

theorem splitCamel_eq_self (hcs : ∀ c ∈ cs, c.isUpper = false) : splitCamel cs = cs := by
  induction cs with
  | nil => rfl
  | cons c rest ih =>
      obtain ⟨hc, hrest⟩ := List.forall_mem_cons.mp hcs
      rw [splitCamel_cons, hc, ih hrest]
      rfl

theorem snakeCase_ofList_cons (c : Char) (cs : List Char) :
    snakeCase (String.ofList (c :: cs)) = String.ofList (Text.lower (c :: splitCamel cs)) := by
  rw [snakeCase, String.toList_ofList]
  dsimp only
  rw [Text.lowered, String.toList_ofList]

theorem snakeCase_of_no_capital (hkey : ∀ c ∈ key.toList, c.isUpper = false) :
    snakeCase key = Text.lowered key := by
  cases hchars : key.toList with
  | nil =>
      rw [snakeCase, hchars, Text.lowered, hchars]
      rfl
  | cons c rest =>
      rw [hchars] at hkey
      have hrest := (List.forall_mem_cons.mp hkey).2
      rw [snakeCase, hchars]
      dsimp only
      rw [splitCamel_eq_self hrest, ← hchars, String.ofList_toList]

/-! ## Normal keys -/

theorem exists_snakeCase_eq_lowered (key : String) : ∃ s, snakeCase key = Text.lowered s := by
  rw [snakeCase]
  split
  · exact ⟨"", rfl⟩
  · exact ⟨_, rfl⟩

theorem snakeCase_snakeCase (key : String) : snakeCase (snakeCase key) = snakeCase key := by
  obtain ⟨s, hs⟩ := exists_snakeCase_eq_lowered key
  have hcapital : ∀ c ∈ (Text.lowered s).toList, c.isUpper = false := by
    rw [Text.lowered, String.toList_ofList]
    exact fun _ => Text.isUpper_of_mem_lower
  rw [hs, snakeCase_of_no_capital hcapital, Text.lowered_lowered]

theorem normalKey_eq (key : String) :
    normalKey key = (aliases.lookup (snakeCase key)).getD (snakeCase key) := rfl

/-- What an alias stands for is no alias. -/
theorem normalKey_of_mem_aliases : ∀ entry ∈ aliases, normalKey entry.2 = entry.2 := by
  decide

theorem normalKey_normalKey (key : String) : normalKey (normalKey key) = normalKey key := by
  cases halias : aliases.lookup (snakeCase key) with
  | none =>
      have hkey : normalKey key = snakeCase key := by rw [normalKey_eq, halias, Option.getD_none]
      rw [hkey, normalKey_eq, snakeCase_snakeCase, halias, Option.getD_none]
  | some target =>
      have hkey : normalKey key = target := by rw [normalKey_eq, halias, Option.getD_some]
      obtain ⟨before, after, htable, -⟩ := List.lookup_eq_some_iff.mp halias
      have hmem : (snakeCase key, target) ∈ aliases := by rw [htable]; simp
      rw [hkey, normalKey_of_mem_aliases _ hmem]

/-! ## Characters of words -/

theorem isWordChar_iff :
    isWordChar c = true ↔ 97 ≤ c.toNat ∧ c.toNat ≤ 122 ∨ 48 ≤ c.toNat ∧ c.toNat ≤ 57 := by
  simp [isWordChar, Char.isLower, Char.isDigit, UInt32.le_iff_toNat_le]

theorem ascii_of_isWordChar (hc : isWordChar c = true) : c.toNat < 0x80 := by
  have hnumber := isWordChar_iff.mp hc
  omega

theorem not_isUpper_of_isWordChar (hc : isWordChar c = true) : c.isUpper = false := by
  have hnumber := isWordChar_iff.mp hc
  rw [Bool.eq_false_iff, Ne, Text.isUpper_iff]
  omega

theorem toLower_of_isWordChar (hc : isWordChar c = true) : c.toLower = c :=
  Char.toLower_eq_of_not_isUpper (Bool.eq_false_iff.mp (not_isUpper_of_isWordChar hc))

namespace KeyWord

theorem isWordChar_of_mem_rest {w : KeyWord} (hc : c ∈ w.rest) : isWordChar c = true :=
  List.all_eq_true.mp w.all_rest c hc

theorem isWordChar_of_mem_small {w : KeyWord} (hc : c ∈ w.small) : isWordChar c = true := by
  rcases List.mem_cons.mp hc with rfl | hrest
  · rw [isWordChar, w.isLower_first, Bool.true_or]
  · exact isWordChar_of_mem_rest hrest

theorem isUpper_toUpper_first (w : KeyWord) : w.first.toUpper.isUpper = true := by
  rw [Char.isUpper_toUpper_eq_isAlpha, Char.isAlpha, w.isLower_first, Bool.or_true]

theorem toLower_toUpper_first (w : KeyWord) : w.first.toUpper.toLower = w.first := by
  rw [Char.toLower_toUpper_eq_toLower]
  exact toLower_of_isWordChar (isWordChar_of_mem_small List.mem_cons_self)

theorem map_toLower_rest (w : KeyWord) : w.rest.map Char.toLower = w.rest :=
  (List.map_congr_left fun _ hc => toLower_of_isWordChar (isWordChar_of_mem_rest hc)).trans
    (List.map_id' w.rest)

theorem map_toLower_capitalized (w : KeyWord) : w.capitalized.map Char.toLower = w.small := by
  rw [capitalized, List.map_cons, w.toLower_toUpper_first, w.map_toLower_rest, small]

theorem ascii_of_mem_capitalized {w : KeyWord} (hc : c ∈ w.capitalized) : c.toNat < 0x80 := by
  rcases List.mem_cons.mp hc with rfl | hrest
  · exact Text.toNat_lt_of_isUpper w.isUpper_toUpper_first
  · exact ascii_of_isWordChar (isWordChar_of_mem_rest hrest)

theorem splitCamel_rest (w : KeyWord) : splitCamel w.rest = w.rest :=
  splitCamel_eq_self fun _ hc => not_isUpper_of_isWordChar (isWordChar_of_mem_rest hc)

theorem splitCamel_capitalized (w : KeyWord) : splitCamel w.capitalized = '_' :: w.capitalized := by
  rw [capitalized, splitCamel_cons, if_pos w.isUpper_toUpper_first, w.splitCamel_rest]

end KeyWord

/-! ## Joined words -/

variable {w : KeyWord} {words more : List KeyWord}

theorem toList_snakeJoined_cons (w : KeyWord) (more : List KeyWord) :
    (snakeJoined (w :: more)).toList = w.small ++ more.flatMap fun v => '_' :: v.small := by
  rw [snakeJoined, String.toList_ofList]
  induction more generalizing w with
  | nil => simp [List.intercalate]
  | cons v rest ih =>
      rw [List.map_cons, List.map_cons, List.intercalate_cons_cons, ← List.map_cons, ih]
      simp

/-- A key in snake case consists of underscores and the characters of its words. -/
theorem of_mem_snakeJoined (hc : c ∈ (snakeJoined words).toList) :
    c = '_' ∨ isWordChar c = true := by
  cases words with
  | nil => simp [snakeJoined, List.intercalate] at hc
  | cons w more =>
      rw [toList_snakeJoined_cons, List.mem_append, List.mem_flatMap] at hc
      rcases hc with hw | ⟨v, -, hv⟩
      · exact .inr (KeyWord.isWordChar_of_mem_small hw)
      · exact (List.mem_cons.mp hv).imp_right KeyWord.isWordChar_of_mem_small

theorem snakeCase_snakeJoined (words : List KeyWord) :
    snakeCase (snakeJoined words) = snakeJoined words := by
  have hkey : ∀ c ∈ (snakeJoined words).toList, c.toNat < 0x80 ∧ c.isUpper = false := by
    intro c hc
    rcases of_mem_snakeJoined hc with rfl | hword
    · decide
    · exact ⟨ascii_of_isWordChar hword, not_isUpper_of_isWordChar hword⟩
  rw [snakeCase_of_no_capital fun c hc => (hkey c hc).2,
    Text.lowered_eq_self fun c hc => Text.isLowered_of_ascii (hkey c hc).1 (hkey c hc).2]

theorem splitCamel_flatMap_capitalized (words : List KeyWord) :
    splitCamel (words.flatMap KeyWord.capitalized) =
      words.flatMap fun w => '_' :: w.capitalized := by
  induction words with
  | nil => rfl
  | cons w more ih =>
      rw [List.flatMap_cons, splitCamel_append, w.splitCamel_capitalized, ih, List.flatMap_cons]

/-- In lower case the capital letters behind the underscores become small again, and so does the
first letter if it is one. -/
theorem lower_flatMap_capitalized (hc : c.toLower = w.first) (hascii : c.toNat < 0x80) :
    Text.lower (c :: w.rest ++ more.flatMap fun v => '_' :: v.capitalized) =
      w.small ++ more.flatMap fun v => '_' :: v.small := by
  have hall : ∀ d ∈ c :: w.rest ++ more.flatMap fun v => '_' :: v.capitalized,
      d.toNat < 0x80 := by
    intro d hd
    rcases List.mem_append.mp hd with hstart | hmore
    · rcases List.mem_cons.mp hstart with rfl | hrest
      · exact hascii
      · exact ascii_of_isWordChar (KeyWord.isWordChar_of_mem_rest hrest)
    · obtain ⟨v, -, hv⟩ := List.mem_flatMap.mp hmore
      rcases List.mem_cons.mp hv with rfl | hv
      · decide
      · exact KeyWord.ascii_of_mem_capitalized hv
  rw [Text.lower, Text.lowerAfter_of_ascii hall, List.map_append, List.map_cons, hc, w.map_toLower_rest,
    List.map_flatMap]
  simp only [List.map_cons, KeyWord.map_toLower_capitalized]
  -- an underscore stays as it is, by evaluation
  rfl

/-- In snake case the words are found again, whether the first one has a capital letter or not. -/
theorem snakeCase_capitalized_tail (hc : c.toLower = w.first) (hascii : c.toNat < 0x80) :
    snakeCase (String.ofList (c :: w.rest ++ more.flatMap KeyWord.capitalized)) =
      snakeJoined (w :: more) := by
  rw [List.cons_append, snakeCase_ofList_cons, splitCamel_append, w.splitCamel_rest,
    splitCamel_flatMap_capitalized, ← List.cons_append, lower_flatMap_capitalized hc hascii,
    ← toList_snakeJoined_cons, String.ofList_toList]

theorem snakeCase_pascalJoined (words : List KeyWord) :
    snakeCase (pascalJoined words) = snakeJoined words := by
  cases words with
  | nil => rfl
  | cons w more =>
      exact snakeCase_capitalized_tail w.toLower_toUpper_first
        (Text.toNat_lt_of_isUpper w.isUpper_toUpper_first)

theorem snakeCase_camelJoined (words : List KeyWord) :
    snakeCase (camelJoined words) = snakeJoined words := by
  cases words with
  | nil => rfl
  | cons w more =>
      have hfirst : isWordChar w.first = true := KeyWord.isWordChar_of_mem_small List.mem_cons_self
      exact snakeCase_capitalized_tail (toLower_of_isWordChar hfirst) (ascii_of_isWordChar hfirst)

/-- **All spellings of a key have one normal key.**  The words of a key joined in camel case, in
Pascal case and in snake case have the same normal key: the one in snake case, or what it is an
alias of.  Every normal key is its own normal key. -/
theorem spellings_of_key :
    (∀ words : List KeyWord,
      let snake := snakeJoined words
      let key := (aliases.lookup snake).getD snake
      normalKey (camelJoined words) = key ∧ normalKey (pascalJoined words) = key ∧
        normalKey snake = key) ∧
    ∀ key : String, normalKey (normalKey key) = normalKey key := by
  refine ⟨fun words => ⟨?camel, ?pascal, ?snake⟩, normalKey_normalKey⟩
  case camel => rw [normalKey_eq, snakeCase_camelJoined]
  case pascal => rw [normalKey_eq, snakeCase_pascalJoined]
  case snake => rw [normalKey_eq, snakeCase_snakeJoined]

/-- The spellings of a key that has another name. -/
example :
    let words : List KeyWord :=
      [⟨'d', ['e', 'f', 'a', 'u', 'l', 't'], rfl, rfl⟩, ⟨'v', ['a', 'l', 'u', 'e'], rfl, rfl⟩]
    camelJoined words = "defaultValue" ∧ pascalJoined words = "DefaultValue" ∧
      snakeJoined words = "default_value" ∧ normalKey "DefaultValue" = "default" := by
  decide

end ComponentDocs.Curated
