import ComponentDocs.Yaml.Value

/-!
# Texts without a value

A YAML text can be malformed.  Apart from that it has no value only for one of two reasons
(`defect_iff`): an escape names a number that no character has, or there is a scalar in its document
whose text does not have the value that its tag promises.

* **Nodes.**  The check of a document only ever looks at nodes in it, those under merge keys
  included (`splits`), so each fault it finds is that of a node in the document (`check_endsWith`).
* **Scalars.**  What is wrong with a scalar belongs to its tag (`scalarValue_endsWith`): only
  numbers, truth values and moments can be at fault.
-/

namespace ComponentDocs.Yaml

/-! ## Steps -/

/-- How a step ends: with one of some problems, or else with one of some results. -/
structure EndsWith {α : Type} (fault : Problem → Prop) (good : α → Prop)
    (step : Except Problem α) : Prop where
  error : ∀ p, step = .error p → fault p
  ok : ∀ a, step = .ok a → good a

namespace EndsWith

variable {α β : Type} {fault worse : Problem → Prop} {good : α → Prop} {step : Except Problem α}

theorem pure {a : α} (ha : good a) : EndsWith fault good (.ok a) where
  error _ hp := nomatch hp
  ok _ hok := Except.ok.inj hok ▸ ha

theorem throw {p : Problem} (hp : fault p) : EndsWith fault good (.error p) where
  error _ herror := Except.error.inj herror ▸ hp
  ok _ hok := nomatch hok

theorem bind {result : β → Prop} {next : α → Except Problem β} (hstep : EndsWith fault good step)
    (hnext : ∀ a, good a → EndsWith fault result (next a)) :
    EndsWith fault result (step >>= next) := by
  cases step with
  | error p => exact .throw (hstep.error p rfl)
  | ok a => exact hnext a (hstep.ok a rfl)

theorem mono {more : α → Prop} (hstep : EndsWith fault good step)
    (hfault : ∀ p, fault p → worse p) (hgood : ∀ a, good a → more a) :
    EndsWith worse more step where
  error p hp := hfault p (hstep.error p hp)
  ok a ha := hgood a (hstep.ok a ha)

theorem map {f : α → β} (hstep : EndsWith fault good step) :
    EndsWith fault (fun _ => True) (f <$> step) := by
  cases step with
  | error p => exact .throw (hstep.error p rfl)
  | ok a => exact .pure trivial

theorem mapM {next : α → Except Problem β} {result : β → Prop} {xs : List α}
    (hnext : ∀ x ∈ xs, EndsWith fault result (next x)) :
    EndsWith fault (fun ys => ∀ y ∈ ys, result y) (xs.mapM next) := by
  induction xs with
  | nil => exact .pure fun _ hy => nomatch hy
  | cons x rest ih =>
      rw [List.mapM_cons]
      refine (hnext x List.mem_cons_self).bind fun y hy => ?_
      refine (ih fun z hz => hnext z (List.mem_cons_of_mem _ hz)).bind fun ys hys => ?_
      exact .pure (List.forall_mem_cons.mpr ⟨hy, hys⟩)

end EndsWith

namespace Node

/-! ## Nodes at fault -/

/-- A node stands in another one, or is that node. -/
inductive Within : Node → Node → Prop
  | refl (node : Node) : Within node node
  | item {node item : Node} {tag : String} {items : List Node} (hitem : item ∈ items)
      (hnode : Within node item) : Within node (.sequence tag items)
  | key {node key value : Node} {tag : String} {entries : List (Node × Node)}
      (hentry : (key, value) ∈ entries) (hnode : Within node key) :
      Within node (.mapping tag entries)
  | value {node key value : Node} {tag : String} {entries : List (Node × Node)}
      (hentry : (key, value) ∈ entries) (hnode : Within node value) :
      Within node (.mapping tag entries)

variable {root node other : Node} {p : Problem}

theorem Within.trans (hnode : node.Within other) (hother : other.Within root) :
    node.Within root := by
  induction hother with
  | refl => exact hnode
  | item hitem _ ih => exact .item hitem ih
  | key hentry _ ih => exact .key hentry ih
  | value hentry _ ih => exact .value hentry ih

/-- A problem is one of form, or that of the text of some node in the given one. -/
def Faulty (root : Node) (p : Problem) : Prop :=
  p = .malformed ∨ ∃ node : Node, node.Within root ∧ node.textValue = .error p

theorem Faulty.mono (hfaulty : node.Faulty p) (hnode : node.Within root) : root.Faulty p := by
  obtain rfl | ⟨part, hpart, hvalue⟩ := hfaulty
  · exact .inl rfl
  · exact .inr ⟨part, hpart.trans hnode, hvalue⟩

/-- A step of the check stays in a node: it finds a fault there, or nodes there to look at next. -/
def Stays (root : Node) (step : Except Problem (List Node)) : Prop :=
  EndsWith root.Faulty (fun nodes => ∀ node ∈ nodes, node.Within root) step

theorem Stays.mono {step : Except Problem (List Node)} (hstays : node.Stays step)
    (hnode : node.Within root) : root.Stays step :=
  EndsWith.mono hstays (fun _ hp => hp.mono hnode) fun _ hparts part hpart =>
    (hparts part hpart).trans hnode

theorem stays_malformed : root.Stays (.error .malformed) := .throw (.inl rfl)

theorem stays_nil : root.Stays (.ok []) := .pure fun _ hnode => nomatch hnode

theorem Stays.flatten {steps : Except Problem (List (List Node))}
    (hsteps : EndsWith root.Faulty (fun found => ∀ nodes ∈ found, ∀ node ∈ nodes, node.Within root)
      steps) : root.Stays (do return (← steps).flatten) := by
  refine EndsWith.bind hsteps fun found hfound => .pure fun node hnode => ?_
  obtain ⟨nodes, hnodes, hnode⟩ := List.mem_flatten.mp hnode
  exact hfound nodes hnodes node hnode

/-! ## Merged entries -/

/-- An entry as it is used is one of a mapping in a node. -/
def EntryOf (root : Node) (entry : Node × Node) : Prop :=
  ∃ key : Node, entry.1 = key.usedKey ∧ key.Within root ∧ entry.2.Within root

/-- Entries that are given are those of mappings in a node; if none are, something is malformed. -/
abbrev GivesEntries {α : Type} (root : Node) (all : α → List (Node × Node))
    (step : Except Problem α) : Prop :=
  EndsWith (· = .malformed) (fun a => ∀ entry ∈ all a, root.EntryOf entry) step

/-- Entries with the merged ones among them all come from mappings in the node. -/
theorem splits :
    (∀ (entries : List (Node × Node)) (root : Node),
      (∀ key value, (key, value) ∈ entries → key.Within root ∧ value.Within root) →
      root.GivesEntries (fun split => split.1 ++ split.2) (splitMerge entries)) ∧
    (∀ node root : Node, node.Within root → root.GivesEntries id (mergedEntries node)) ∧
    (∀ (items : List Node) (root : Node), (∀ item ∈ items, item.Within root) →
      root.GivesEntries List.flatten (mergedItems items)) := by
  refine splitMerge.mutual_induct _ _ _ ?mapping ?sequence ?enclosing ?scalar ?none ?items
    ?enclosingItem ?otherItem ?empty ?merge ?own
  case mapping =>
    intro tag entries ih root hnode
    rw [mergedEntries]
    have hentries := ih root fun key value hentry =>
      ⟨(Within.key hentry (.refl _)).trans hnode, (Within.value hentry (.refl _)).trans hnode⟩
    exact hentries.bind fun (merged, own) hall => .pure hall
  case sequence =>
    intro tag items ih root hnode
    rw [mergedEntries]
    have hitems := ih root fun item hitem => (Within.item hitem (.refl _)).trans hnode
    refine hitems.bind fun found hall => .pure fun entry hentry => hall entry ?_
    simpa using hentry
  case enclosing => exact fun _ _ _ _ => .pure fun _ hentry => nomatch hentry
  case scalar => exact fun _ _ _ _ => .throw rfl
  case none => exact fun _ _ => .pure fun _ hentry => nomatch hentry
  case items =>
    intro tag entries rest ihFirst ihRest root hitems
    rw [mergedItems]
    have hfirst := hitems _ List.mem_cons_self
    have hentries := ihFirst root fun key value hentry =>
      ⟨(Within.key hentry (.refl _)).trans hfirst, (Within.value hentry (.refl _)).trans hfirst⟩
    have hrest := ihRest root fun item hitem => hitems item (List.mem_cons_of_mem _ hitem)
    refine hentries.bind fun (merged, own) hall => hrest.bind fun found hmore => .pure ?_
    rw [List.flatten_cons]
    exact List.forall_mem_append.mpr ⟨hall, hmore⟩
  case enclosingItem =>
    intro tag rest ih root hitems
    rw [mergedItems]
    exact ih root fun item hitem => hitems item (List.mem_cons_of_mem _ hitem)
  case otherItem =>
    intro items hnil hmapping henclosing root _
    rw [mergedItems]
    · exact .throw rfl
    · exact hnil
    · exact hmapping
    · exact henclosing
  case empty => exact fun _ _ => .pure fun _ hentry => nomatch hentry
  case merge =>
    intro key value rest htag ihValue ihRest root hentries
    rw [splitMerge, if_pos htag]
    have hmore := ihValue root (hentries key value List.mem_cons_self).2
    have hrest := ihRest root fun key value hentry =>
      hentries key value (List.mem_cons_of_mem _ hentry)
    refine hmore.bind fun more hall => hrest.bind fun (merged, own) hothers => .pure ?_
    show ∀ entry ∈ more ++ merged ++ own, root.EntryOf entry
    rw [List.append_assoc]
    exact List.forall_mem_append.mpr ⟨hall, hothers⟩
  case own =>
    intro key value rest htag ih root hentries
    rw [splitMerge, if_neg htag]
    have hrest := ih root fun key value hentry =>
      hentries key value (List.mem_cons_of_mem _ hentry)
    refine hrest.bind fun (merged, own) hothers => .pure fun entry hentry => ?_
    rcases List.mem_append.mp hentry with hmerged | hown
    · exact hothers entry (List.mem_append_left _ hmerged)
    · rcases List.mem_cons.mp hown with rfl | hown
      · obtain ⟨hkey, hvalue⟩ := hentries key value List.mem_cons_self
        exact ⟨key, rfl, hkey, hvalue⟩
      · exact hothers entry (List.mem_append_right _ hown)

/-! ## The check of a document -/

theorem beginNode_stays (node : Node) : node.Stays node.beginNode := by
  unfold beginNode
  split
  · exact stays_nil
  · split
    · exact .pure fun other hother => List.mem_singleton.mp hother ▸ .refl node
    · have hvalue : EndsWith node.Faulty (fun _ => True) node.textValue :=
        ⟨fun p hp => .inr ⟨node, .refl node, hp⟩, fun _ _ => trivial⟩
      exact hvalue.bind fun _ _ => stays_nil

/-- The fault of a key as it is used is that of the key as it stands. -/
theorem faulty_of_textValue_usedKey {key : Node} (hp : key.usedKey.textValue = .error p) :
    key.Faulty p := by
  cases key with
  | scalar tag text =>
      by_cases hvalue : tag = Tag.value
      · simp [usedKey, hvalue, textValue, Node.text?, Node.tag, scalarValue] at hp
      · rw [usedKey, if_neg hvalue] at hp
        exact .inr ⟨_, .refl _, hp⟩
  | _ => exact .inr ⟨_, .refl _, hp⟩

theorem beginEntry_stays {entry : Node × Node} (hentry : root.EntryOf entry) :
    root.Stays (beginEntry entry) := by
  obtain ⟨key, hused, hkey, hvalue⟩ := hentry
  unfold beginEntry
  rw [hused]
  split
  · exact stays_malformed
  · split
    · exact stays_malformed
    · have htext : EndsWith root.Faulty (fun _ => True) key.usedKey.textValue :=
        ⟨fun p hp => (faulty_of_textValue_usedKey hp).mono hkey, fun _ _ => trivial⟩
      exact htext.bind fun _ _ => (beginNode_stays entry.2).mono hvalue

theorem beginPair_stays (item : Node) : item.Stays (beginPair item) := by
  unfold beginPair
  split
  · next tag key value =>
      have hkey : key.Within (.mapping tag [(key, value)]) := .key List.mem_cons_self (.refl key)
      have hvalue : value.Within (.mapping tag [(key, value)]) :=
        .value List.mem_cons_self (.refl value)
      refine EndsWith.bind ((beginNode_stays key).mono hkey) fun nodes hnodes => ?_
      refine EndsWith.bind ((beginNode_stays value).mono hvalue) fun more hmore => ?_
      exact .pure (List.forall_mem_append.mpr ⟨hnodes, hmore⟩)
  · exact stays_malformed

theorem beginContent_stays (node : Node) : node.Stays node.beginContent := by
  unfold beginContent
  split
  · next tag items =>
      have hitem {item : Node} (hitem : item ∈ items) :
          item.Within (.sequence tag items) := .item hitem (.refl item)
      split
      · exact Stays.flatten (.mapM fun item h => (beginNode_stays item).mono (hitem h))
      · split
        · exact Stays.flatten (.mapM fun item h => (beginPair_stays item).mono (hitem h))
        · exact stays_malformed
  · next tag entries =>
      split
      · have hsplit := splits.1 entries (.mapping tag entries) fun key value hentry =>
          ⟨.key hentry (.refl key), .value hentry (.refl value)⟩
        refine EndsWith.bind (hsplit.mono (fun _ hp => .inl hp) fun _ hall => hall)
          fun (merged, own) hall => ?_
        exact Stays.flatten (.mapM fun entry h => beginEntry_stays (hall entry h))
      · exact stays_malformed
  · exact stays_malformed

theorem checkLevels_endsWith (fuel : Nat) {nodes : List Node}
    (hnodes : ∀ node ∈ nodes, node.Within root) :
    EndsWith root.Faulty (fun _ => True) (checkLevels fuel nodes) := by
  induction fuel generalizing nodes with
  | zero => exact .pure trivial
  | succ fuel ih =>
      cases nodes with
      | nil => exact .pure trivial
      | cons node rest =>
          rw [checkLevels]
          · refine EndsWith.bind (.mapM fun part hpart =>
              (beginContent_stays part).mono (hnodes part hpart)) fun found hfound => ih ?_
            intro part hpart
            obtain ⟨parts, hparts, hpart⟩ := List.mem_flatten.mp hpart
            exact hfound parts hparts part hpart
          · exact List.cons_ne_nil _ _

/-- **The check of a document finds only faults of nodes in it.** -/
theorem check_endsWith (root : Node) : EndsWith root.Faulty (fun _ => True) root.check :=
  EndsWith.bind (beginNode_stays root) fun _ hnodes => checkLevels_endsWith _ hnodes

end Node

/-! ## Scalars at fault -/

/-- A problem is one that texts with a tag can have. -/
def Problem.Concerns (tag : String) : Problem → Prop
  | .emptyNumber => tag = Tag.integer ∨ tag = Tag.float
  | .notInteger _ _ => tag = Tag.integer
  | .notFloat _ => tag = Tag.float
  | .notBoolean _ => tag = Tag.boolean
  | .notMoment | .calendar _ => tag = Tag.moment
  | .malformed | .noCharacter _ => False

/-- The value of a text with a tag can only be missing for a problem of that tag. -/
abbrev Suits {α : Type} (tag : String) (step : Except Problem α) : Prop :=
  EndsWith (·.Concerns tag) (fun _ => True) step

theorem integerIn_suits (base : Nat) (cs : List Char) : Suits Tag.integer (integerIn base cs) := by
  unfold integerIn
  dsimp only
  split
  · exact .pure trivial
  · exact .throw rfl

theorem integerValue_suits (text : String) : Suits Tag.integer (integerValue text) := by
  have hsign {step : Except Problem Int} (hstep : Suits Tag.integer step) :
      Suits Tag.integer (do
        let magnitude ← step
        return if (text.toList.filter (· != '_')).head? == some '-' then -magnitude
          else magnitude) :=
    EndsWith.bind hstep fun _ _ => .pure trivial
  unfold integerValue
  dsimp only
  split
  · exact hsign (.throw (.inl rfl))
  · exact hsign (.pure trivial)
  · exact hsign (integerIn_suits 2 _)
  · exact hsign (integerIn_suits 16 _)
  · exact hsign (integerIn_suits 8 _)
  · split
    · refine EndsWith.bind (.mapM fun part _ => integerIn_suits 10 part) fun _ _ => ?_
      exact hsign (.pure trivial)
    · exact hsign (integerIn_suits 10 _)

theorem floatIn_suits (cs : List Char) : Suits Tag.float (floatIn cs) := by
  unfold floatIn
  dsimp only
  split
  · exact .pure trivial
  · exact .throw rfl

theorem floatValue_suits (text : String) : Suits Tag.float (floatValue text) := by
  unfold floatValue
  dsimp only
  split
  · exact .throw (.inr rfl)
  · split
    · exact .pure trivial
    · split
      · exact .pure trivial
      · split
        · refine EndsWith.bind (.mapM fun part _ => floatIn_suits part) fun _ _ => ?_
          exact .pure trivial
        · exact EndsWith.bind (floatIn_suits _) fun _ _ => .pure trivial

theorem booleanValue_suits (text : String) : Suits Tag.boolean (booleanValue text) := by
  unfold booleanValue
  split <;> first | exact .pure trivial | exact .throw rfl

theorem orCalendar_suits {α : Type} (result : Except CalendarError α) :
    Suits Tag.moment (orCalendar result) := by
  cases result with
  | error e => exact .throw rfl
  | ok a => exact .pure trivial

theorem zoneOffset_suits (zone : Option (Char × List Char × List Char)) :
    Suits Tag.moment (zoneOffset zone) := by
  unfold zoneOffset
  split
  · exact .pure trivial
  · dsimp only
    split
    · exact .pure trivial
    · exact .throw rfl

theorem momentValue_suits (text : String) : Suits Tag.moment (momentValue text) := by
  unfold momentValue
  split
  · exact .throw rfl
  · dsimp only
    split
    · exact EndsWith.bind (orCalendar_suits _) fun _ _ => .pure trivial
    · refine EndsWith.bind (zoneOffset_suits _) fun _ _ => ?_
      refine EndsWith.bind (orCalendar_suits _) fun _ _ => ?_
      exact EndsWith.bind (orCalendar_suits _) fun _ _ => .pure trivial

/-- **What is wrong with a scalar belongs to its tag.** -/
theorem scalarValue_endsWith (tag text : String) :
    EndsWith (fun p => p = .malformed ∨ p.Concerns tag) (fun _ => True) (scalarValue tag text) := by
  have hright {step : Except Problem Datum} (hstep : Suits tag step) :
      EndsWith (fun p => p = .malformed ∨ p.Concerns tag) (fun _ => True) step :=
    hstep.mono (fun _ => .inr) fun _ => id
  unfold scalarValue
  split
  · exact .pure trivial
  split
  · exact .pure trivial
  split
  · next htag => exact hright (htag ▸ (booleanValue_suits text).map)
  split
  · next htag => exact hright (htag ▸ (integerValue_suits text).map)
  split
  · next htag => exact hright (htag ▸ (floatValue_suits text).map)
  split
  · next htag => exact hright (htag ▸ momentValue_suits text)
  split
  · split
    · exact .pure trivial
    · exact .throw (.inl rfl)
  · exact .throw (.inl rfl)

/-- A document that has the right form and yet is at fault has a scalar without a value. -/
theorem exists_scalar_of_check {root : Node} {p : Problem} (hcheck : root.check = .error p)
    (hform : p ≠ .malformed) :
    ∃ (node : Node) (text : String), node.Within root ∧ node.text? = some text ∧
      scalarValue node.tag text = .error p ∧ p.Concerns node.tag := by
  obtain hmalformed | ⟨node, hnode, hfault⟩ := root.check_endsWith.error p hcheck
  · exact absurd hmalformed hform
  rw [Node.textValue] at hfault
  cases htext : node.text? with
  | none =>
      rw [htext] at hfault
      exact absurd (Except.error.inj hfault).symm hform
  | some text =>
      rw [htext] at hfault
      have hconcerns := (scalarValue_endsWith node.tag text).error p hfault
      exact ⟨node, text, hnode, htext, hfault, hconcerns.resolve_left hform⟩

/-! ## Texts -/

/-- Why a text that is not malformed has no value: an escape names no character, or a scalar in its
document does not have the value that its tag promises. -/
inductive Defect (cs : List Char) : Problem → Prop
  | escape {huge : Bool} (hscan : Token.scan cs = .error (.noCharacter huge)) :
      Defect cs (.noCharacter huge)
  | scalar {tokens : List Token} {root node : Node} {text : String} {p : Problem}
      (hscan : Token.scan cs = .ok tokens) (hroot : Node.ofTokens? tokens = some (some root))
      (hcheck : root.check = .error p) (hnode : node.Within root) (htext : node.text? = some text)
      (hvalue : scalarValue node.tag text = .error p) (hconcerns : p.Concerns node.tag) :
      Defect cs p

/-- **A text has no value for another reason than its form if and only if an escape or a scalar in
it has none.** -/
theorem defect_iff {cs : List Char} {p : Problem} :
    Defect cs p ↔ parse cs = .error p ∧ p ≠ .malformed := by
  constructor
  · rintro (hscan | ⟨hscan, hroot, hcheck, -, -, -, hconcerns⟩)
    · exact ⟨by rw [parse, hscan]; rfl, nofun⟩
    · refine ⟨?_, ?_⟩
      · simp only [parse, hscan, hroot, hcheck, bind, Except.bind]
      · rintro rfl
        exact hconcerns
  · rintro ⟨hparse, hform⟩
    rw [parse] at hparse
    cases hscan : Token.scan cs with
    | error e =>
        rw [hscan] at hparse
        cases e with
        | malformed => exact absurd (Except.error.inj hparse).symm hform
        | noCharacter huge =>
            cases hparse
            exact .escape hscan
    | ok tokens =>
        rw [hscan] at hparse
        dsimp only at hparse
        split at hparse
        · exact absurd (Except.error.inj hparse).symm hform
        · cases hparse
        · next root hroot =>
            cases hcheck : root.check with
            | ok a => simp [hcheck, bind, Except.bind, pure, Except.pure] at hparse
            | error e =>
                obtain rfl : e = p := by
                  simpa [hcheck, bind, Except.bind] using hparse
                obtain ⟨node, text, hnode, htext, hvalue, hconcerns⟩ :=
                  exists_scalar_of_check hcheck hform
                exact .scalar hscan hroot hcheck hnode htext hvalue hconcerns

/-- The problem of a text without a value. -/
def problem? (cs : List Char) : Option Problem :=
  match parse cs with
  | .error p => some p
  | .ok _ => none

theorem problem?_eq_some_iff {cs : List Char} {p : Problem} :
    problem? cs = some p ↔ parse cs = .error p := by
  unfold problem?
  cases parse cs <;> simp

instance (cs : List Char) (p : Problem) : Decidable (Defect cs p) :=
  decidable_of_iff (problem? cs = some p ∧ p ≠ .malformed)
    ((and_congr_left' problem?_eq_some_iff).trans defect_iff.symm)

end ComponentDocs.Yaml
