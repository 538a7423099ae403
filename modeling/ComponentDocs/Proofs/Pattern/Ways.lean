import Mathlib.Data.List.Basic
import ComponentDocs.NamePattern

/-!
# Ways to match

What a pattern means is told by the ways to match it: the spots where a match from a spot on can
end, in the order of preference (`Regex.ways`).  Alternatives add their ways, parts in a row compose
them, a repetition that is not lazy puts those with more rounds first, and wherever a choice is not
to be taken back, only the first way is left.

Matching never makes this list.  It takes up the ways one by one, each with what is to match behind
it, and ends with the first that goes on; but what it finds is what the list holds:

* `Regex.tries_run`: matching tries the ways of an expression in their order.
* `NamePattern.found_iff`: a pattern is found in a name if and only if there is a way to match it
  from one of the spots of the name on.

The bound on the number of rounds is no part of the meaning.  No way leads back
(`Regex.leadsOn_of_mem_ways`), so that after a round for each character there is nothing left to try
(`Regex.upToWays_of_lt`).
-/

namespace ComponentDocs

namespace Regex

/-! ## The ways of repetitions -/

/-- The ways through a given number of rounds. -/
def exactlyWays (round : Spot → List Spot) : ℕ → Spot → List Spot
  | 0, s => [s]
  | n + 1, s => (round s).flatMap (exactlyWays round n)

/-- The ways through up to a number of rounds, a round that used up nothing being the last. -/
def upToWays (isLazy : Bool) (round : Spot → List Spot) : ℕ → Option ℕ → Spot → List Spot
  | 0, _, s => [s]
  | n + 1, last, s =>
    let more := if last = some s.rest.length then []
      else (round s).flatMap (upToWays isLazy round n (some s.rest.length))
    if isLazy then s :: more else more ++ [s]

/-- The ways through the least to the greatest number of rounds. -/
def roundsWays (isLazy : Bool) (least : ℕ) (most : Option ℕ) (round : Spot → List Spot)
    (s : Spot) : List Spot :=
  (exactlyWays round least s).flatMap fun t =>
    upToWays isLazy round (roundsLeft least most t) none t

/-- The first way alone. -/
def firstWay (ways : Spot → List Spot) (s : Spot) : List Spot := (ways s).head?.toList

/-- The spots where a match of an expression can end, the preferred ones first. -/
def ways : Regex → List Flag → Spot → List Spot
  | empty, _, s => [s]
  | one set, flags, s => (s.pass? (set.has flags)).toList
  | dot, flags, s => (s.pass? fun c => .dotAll ∈ flags || c ≠ '\n').toList
  | mark m, flags, s => if m.holds flags s then [s] else []
  | seq p q, flags, s => (ways p flags s).flatMap (ways q flags)
  | alt p q, flags, s => ways p flags s ++ ways q flags s
  | repeated .greedy least most p, flags, s => roundsWays false least most (ways p flags) s
  | repeated .lazy least most p, flags, s => roundsWays true least most (ways p flags) s
  | repeated .possessive least most p, flags, s =>
    firstWay (roundsWays false least most (firstWay (ways p flags))) s
  | group number p, flags, s => (ways p flags s).map (·.keeping number s)
  | flagged on off p, flags, s => ways p (Flag.within on off flags) s
  | atomic p, flags, s => firstWay (ways p flags) s
  | look ahead positive p, flags, s =>
    let start := if ahead then some s else s.back? p.lengths.least
    (s.looked positive (start.bind fun t => (ways p flags t).head?)).toList
  | same number _, flags, s =>
    ((s.kept.lookup number).bind fun text => s.behind? flags text).toList
  | conditional number yes no, flags, s =>
    if (s.kept.lookup number).isSome then ways yes flags s else ways no flags s

/-! ## Matching tries the ways in order -/

/-- Going on after a match is going on after the first of some ways from which that succeeds. -/
def Tries (match? : Onward → Onward) (ways : Spot → List Spot) : Prop :=
  ∀ next s, match? next s = (ways s).findSome? next

variable {match? round : Onward → Onward} {roundWays : Spot → List Spot} {p : Regex}
  {flags : List Flag} {s t : Spot}

theorem findSome?_toList {α β : Type} (f : α → Option β) (o : Option α) :
    o.toList.findSome? f = o.bind f := by
  cases o <;> simp

theorem findSome?_cons_eq_or {α β : Type} (f : α → Option β) (a : α) (l : List α) :
    (a :: l).findSome? f = (f a).or (l.findSome? f) := by
  rw [List.findSome?_cons]
  cases f a <;> rfl

theorem Tries.head? {ways : Spot → List Spot} (htries : Tries match? ways) (s : Spot) :
    match? some s = (ways s).head? := by
  rw [htries]
  cases ways s <;> rfl

theorem Tries.first {ways : Spot → List Spot} (htries : Tries match? ways) :
    Tries (first match?) (firstWay ways) := by
  intro next s
  rw [Regex.first, htries.head?, firstWay, findSome?_toList]

theorem findSome?_flatMap {α β γ : Type} (f : β → Option γ) (g : α → List β) (l : List α) :
    (l.flatMap g).findSome? f = l.findSome? fun a => (g a).findSome? f := by
  induction l with
  | nil => rfl
  | cons a l ih =>
      rw [List.flatMap_cons, List.findSome?_append, ih, findSome?_cons_eq_or]

section Rounds

variable (htries : Tries round roundWays)
include htries

theorem tries_exactly (n : ℕ) (next : Onward) (s : Spot) :
    exactly round n next s = (exactlyWays roundWays n s).findSome? next := by
  induction n generalizing s with
  | zero => simp [exactly, exactlyWays]
  | succ n ih => rw [exactly, htries, exactlyWays, findSome?_flatMap, funext ih]

theorem tries_upTo (isLazy : Bool) (next : Onward) (n : ℕ) (last : Option ℕ) (s : Spot) :
    upTo isLazy round next n last s = (upToWays isLazy roundWays n last s).findSome? next := by
  induction n generalizing last s with
  | zero => simp [upTo, upToWays]
  | succ n ih =>
      rw [upTo, upToWays]
      have hmore : (if last = some s.rest.length then none
          else round (upTo isLazy round next n (some s.rest.length)) s) =
          (if last = some s.rest.length then []
            else (roundWays s).flatMap
              (upToWays isLazy roundWays n (some s.rest.length))).findSome? next := by
        split
        · rfl
        · rw [htries, findSome?_flatMap, funext (ih (some s.rest.length))]
      cases isLazy with
      | false => simp [hmore, List.findSome?_append, Option.orElse_eq_or]
      | true => simp [hmore, Option.orElse_eq_or, findSome?_cons_eq_or]

theorem tries_rounds (isLazy : Bool) (least : ℕ) (most : Option ℕ) :
    Tries (rounds isLazy least most round) (roundsWays isLazy least most roundWays) := by
  intro next s
  simp only [rounds, tries_exactly htries, roundsWays, findSome?_flatMap,
    tries_upTo htries isLazy next]

end Rounds

/-- **Matching an expression tries its ways in their order.** -/
theorem tries_run (p : Regex) (flags : List Flag) : Tries (p.run flags) (p.ways flags) := by
  induction p generalizing flags with
  | empty => exact fun next s => (List.findSome?_singleton ..).symm
  | one set => exact fun next s => (findSome?_toList ..).symm
  | dot => exact fun next s => (findSome?_toList ..).symm
  | mark m =>
      intro next s
      by_cases hmark : m.holds flags s <;> simp [run, ways, hmark]
  | seq p q ihp ihq =>
      intro next s
      rw [run, ways, ihp, findSome?_flatMap, funext (ihq flags next)]
  | alt p q ihp ihq =>
      intro next s
      rw [ways, List.findSome?_append, ← ihp, ← ihq]
      exact Option.orElse_eq_or
  | repeated manner least most p ih =>
      cases manner with
      | greedy => exact tries_rounds (ih flags) false least most
      | lazy => exact tries_rounds (ih flags) true least most
      | possessive => exact (tries_rounds (ih flags).first false least most).first
  | group number p ih =>
      intro next s
      rw [ways, List.findSome?_map]
      exact ih flags _ s
  | flagged on off p ih => exact ih (Flag.within on off flags)
  | atomic p ih => exact (ih flags).first
  | look ahead positive p ih =>
      intro next s
      simp only [run, ways, funext (ih flags).head?, findSome?_toList]
  | same number lengths => exact fun next s => (findSome?_toList ..).symm
  | conditional number yes no ihyes ihno =>
      intro next s
      by_cases hkept : (s.kept.lookup number).isSome
      · simpa [run, ways, hkept] using ihyes flags next s
      · simpa [run, ways, hkept] using ihno flags next s

end Regex

/-! ## No way leads back -/

/-- The second spot is further on in the same text. -/
def Spot.LeadsOn (s t : Spot) : Prop :=
  ∃ used, s.rest = used ++ t.rest ∧ t.before = used.reverse ++ s.before

namespace Spot

variable {s t u : Spot}

theorem LeadsOn.here (hbefore : t.before = s.before) (hrest : t.rest = s.rest) : s.LeadsOn t :=
  ⟨[], hrest.symm, hbefore⟩

theorem LeadsOn.trans (hfirst : s.LeadsOn t) (hsecond : t.LeadsOn u) : s.LeadsOn u := by
  obtain ⟨first, hrest, hbefore⟩ := hfirst
  obtain ⟨second, hrest', hbefore'⟩ := hsecond
  refine ⟨first ++ second, ?_, ?_⟩
  · rw [hrest, hrest', List.append_assoc]
  · rw [hbefore', hbefore, List.reverse_append, List.append_assoc]

theorem LeadsOn.length_le (hleads : s.LeadsOn t) : t.rest.length ≤ s.rest.length := by
  obtain ⟨used, hrest, -⟩ := hleads
  rw [hrest, List.length_append]
  exact Nat.le_add_left ..

theorem leadsOn_of_pass? {kind : Char → Bool} (hpass : s.pass? kind = some t) : s.LeadsOn t := by
  unfold pass? at hpass
  split at hpass
  · next c rest hrest =>
      split at hpass
      · cases hpass
        exact ⟨[c], hrest, rfl⟩
      · cases hpass
  · cases hpass

theorem leadsOn_of_behind? {flags : List Flag} {text : List Char}
    (hbehind : s.behind? flags text = some t) : s.LeadsOn t := by
  induction text generalizing s with
  | nil =>
      cases hbehind
      exact .here rfl rfl
  | cons c cs ih =>
      obtain ⟨u, hpass, hrest⟩ := Option.bind_eq_some_iff.mp hbehind
      exact (leadsOn_of_pass? hpass).trans (ih hrest)

theorem leadsOn_of_looked {positive : Bool} {found : Option Spot}
    (hlooked : s.looked positive found = some t) : s.LeadsOn t := by
  cases found <;> cases positive <;> cases hlooked <;> exact .here rfl rfl

end Spot

namespace Regex

variable {round : Spot → List Spot} {s t : Spot}

/-- Lazy or not, the way without another round is there beside those with one. -/
theorem mem_upToWays_succ {isLazy : Bool} {n : ℕ} {last : Option ℕ} :
    t ∈ upToWays isLazy round (n + 1) last s ↔
      t = s ∨ last ≠ some s.rest.length ∧
        ∃ u ∈ round s, t ∈ upToWays isLazy round n (some s.rest.length) u := by
  by_cases hlast : last = some s.rest.length <;> cases isLazy <;>
    simp [upToWays, hlast, or_comm]

section Rounds

variable (hround : ∀ {s t}, t ∈ round s → s.LeadsOn t)
include hround

theorem leadsOn_of_mem_exactlyWays {n : ℕ} (ht : t ∈ exactlyWays round n s) : s.LeadsOn t := by
  induction n generalizing s with
  | zero =>
      cases List.mem_singleton.mp ht
      exact .here rfl rfl
  | succ n ih =>
      obtain ⟨u, hu, hrest⟩ := List.mem_flatMap.mp ht
      exact (hround hu).trans (ih hrest)

theorem leadsOn_of_mem_upToWays {isLazy : Bool} {n : ℕ} {last : Option ℕ}
    (ht : t ∈ upToWays isLazy round n last s) : s.LeadsOn t := by
  induction n generalizing last s with
  | zero =>
      cases List.mem_singleton.mp ht
      exact .here rfl rfl
  | succ n ih =>
      rcases mem_upToWays_succ.mp ht with rfl | ⟨-, u, hu, hrest⟩
      · exact .here rfl rfl
      · exact (hround hu).trans (ih hrest)

theorem leadsOn_of_mem_roundsWays {isLazy : Bool} {least : ℕ} {most : Option ℕ}
    (ht : t ∈ roundsWays isLazy least most round s) : s.LeadsOn t := by
  obtain ⟨u, hu, hrest⟩ := List.mem_flatMap.mp ht
  exact (leadsOn_of_mem_exactlyWays hround hu).trans (leadsOn_of_mem_upToWays hround hrest)

theorem leadsOn_of_mem_firstWay (ht : t ∈ firstWay round s) : s.LeadsOn t :=
  hround (List.mem_of_mem_head? (Option.mem_toList.mp ht))

end Rounds

/-- **Every way to match leads on in the text.** -/
theorem leadsOn_of_mem_ways {p : Regex} {flags : List Flag} (ht : t ∈ p.ways flags s) :
    s.LeadsOn t := by
  induction p generalizing flags s t with
  | empty =>
      cases List.mem_singleton.mp ht
      exact .here rfl rfl
  | one set => exact Spot.leadsOn_of_pass? (Option.mem_toList.mp ht)
  | dot => exact Spot.leadsOn_of_pass? (Option.mem_toList.mp ht)
  | mark m =>
      rw [ways] at ht
      split at ht
      · cases List.mem_singleton.mp ht
        exact .here rfl rfl
      · cases ht
  | seq p q ihp ihq =>
      obtain ⟨u, hu, hrest⟩ := List.mem_flatMap.mp ht
      exact (ihp hu).trans (ihq hrest)
  | alt p q ihp ihq => exact (List.mem_append.mp ht).elim ihp ihq
  | repeated manner least most p ih =>
      cases manner with
      | greedy => exact leadsOn_of_mem_roundsWays ih ht
      | lazy => exact leadsOn_of_mem_roundsWays ih ht
      | possessive =>
          exact leadsOn_of_mem_firstWay
            (leadsOn_of_mem_roundsWays (leadsOn_of_mem_firstWay ih)) ht
  | group number p ih =>
      obtain ⟨u, hu, rfl⟩ := List.mem_map.mp ht
      exact (ih hu).trans (.here rfl rfl)
  | flagged on off p ih => exact ih ht
  | atomic p ih => exact leadsOn_of_mem_firstWay ih ht
  | look ahead positive p => exact Spot.leadsOn_of_looked (Option.mem_toList.mp ht)
  | same number lengths =>
      obtain ⟨text, -, hbehind⟩ := Option.bind_eq_some_iff.mp (Option.mem_toList.mp ht)
      exact Spot.leadsOn_of_behind? hbehind
  | conditional number yes no ihyes ihno =>
      rw [ways] at ht
      split at ht
      · exact ihyes ht
      · exact ihno ht

/-! ## The bound on rounds -/

section Bound

variable (hround : ∀ {s t}, t ∈ round s → s.LeadsOn t)
include hround

/-- One more round changes nothing once there is a round for each character and one more: what is
left to try starts where the last round started. -/
theorem upToWays_succ_of_lt {isLazy : Bool} {n : ℕ} {last : Option ℕ} (hn : s.rest.length < n) :
    upToWays isLazy round (n + 1) last s = upToWays isLazy round n last s := by
  induction n generalizing last s with
  | zero => exact absurd hn (Nat.not_lt_zero _)
  | succ n ih =>
      have hmore : (round s).flatMap (upToWays isLazy round (n + 1) (some s.rest.length)) =
          (round s).flatMap (upToWays isLazy round n (some s.rest.length)) := by
        refine List.flatMap_congr fun t ht => ?_
        rcases Nat.eq_or_lt_of_le (hround ht).length_le with hsame | hless
        · cases n <;> simp [upToWays, hsame]
        · exact ih (by omega)
      rw [upToWays, hmore]
      rfl

theorem upToWays_of_lt {isLazy : Bool} {n m : ℕ} {last : Option ℕ} (hn : s.rest.length < n)
    (hm : n ≤ m) : upToWays isLazy round m last s = upToWays isLazy round n last s := by
  induction m with
  | zero => rw [Nat.le_zero.mp hm]
  | succ m ih =>
      rcases Nat.eq_or_lt_of_le hm with rfl | hless
      · rfl
      · rw [upToWays_succ_of_lt hround (by omega), ih (by omega)]

/-- **A repetition tries every number of rounds up to its greatest**, however short the text is. -/
theorem upToWays_roundsLeft {isLazy : Bool} {least n : ℕ} {last : Option ℕ} :
    upToWays isLazy round (roundsLeft least (some n) s) last s =
      upToWays isLazy round (n - least) last s := by
  rcases Nat.le_total (n - least) (s.rest.length + 1) with hle | hle
  · rw [roundsLeft, Nat.min_eq_left hle]
  · rw [roundsLeft, Nat.min_eq_right hle, upToWays_of_lt hround (Nat.lt_succ_self _) hle]

end Bound

end Regex

/-! ## Names -/

/-- There is a way to match the pattern from one of the spots of the name on. -/
def NamePattern.Occurs (pattern : NamePattern) (name : String) : Prop :=
  ∃ before rest, name.toList = before ++ rest ∧
    ∃ spot, spot ∈ pattern.regex.ways pattern.flags ⟨before.reverse, rest, []⟩

theorem Regex.isSome_run {p : Regex} {flags : List Flag} {s : Spot} :
    (p.run flags some s).isSome ↔ ∃ t, t ∈ p.ways flags s := by
  rw [(tries_run p flags).head?]
  cases p.ways flags s <;> simp

theorem Regex.findFrom_iff {p : Regex} {flags : List Flag} {passed cs : List Char} :
    p.findFrom flags passed cs ↔
      ∃ before rest, cs = before ++ rest ∧
        ∃ t, t ∈ p.ways flags ⟨before.reverse ++ passed, rest, []⟩ := by
  induction cs generalizing passed with
  | nil =>
      rw [findFrom, isSome_run]
      constructor
      · exact fun hfound => ⟨[], [], rfl, hfound⟩
      · rintro ⟨before, rest, hsplit, hfound⟩
        obtain ⟨rfl, rfl⟩ := List.nil_eq_append_iff.mp hsplit
        exact hfound
  | cons c cs ih =>
      rw [findFrom, Bool.or_eq_true, isSome_run, ih]
      constructor
      · rintro (hfound | ⟨before, rest, rfl, t, ht⟩)
        · exact ⟨[], c :: cs, rfl, hfound⟩
        · exact ⟨c :: before, rest, rfl, t, by simpa using ht⟩
      · rintro ⟨before, rest, hsplit, t, ht⟩
        cases before with
        | nil =>
            cases hsplit
            exact .inl ⟨t, ht⟩
        | cons d before =>
            cases hsplit
            exact .inr ⟨before, rest, rfl, t, by simpa using ht⟩

/-- **Searching a name finds a pattern if and only if it occurs there.** -/
theorem NamePattern.found_iff {pattern : NamePattern} {name : String} :
    pattern.found name ↔ pattern.Occurs name := by
  rw [found, Regex.findFrom_iff, Occurs]
  simp only [List.append_nil]

/-- A word has letters of every script. -/
example : (NamePattern.parse (fun _ => none) "^\\w+\\.tsx$").map (NamePattern.found · "Größe.tsx") =
    .ok true := by
  decide +kernel

/-- What gives nothing back leaves nothing for what follows it. -/
example : (NamePattern.parse (fun _ => none) ".*+\\.tsx$").map (NamePattern.found · "Tag.tsx") =
    .ok false := by
  decide +kernel

end ComponentDocs
