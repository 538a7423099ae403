import Mathlib.Data.List.Forall2
import Mathlib.Data.List.Induction
import ComponentDocs.Proofs.Data.Stores

/-!
# What a store has been told

A store is what its history makes of it.  A history is a list of calls, and a call is known by its
number in it.  Under a key there is the record that was stored last, if no later call has removed it
(`LastStored`); the key stands where it was put when it was first stored after it had last been
removed (`FirstStored`).  That is all there is to a store (`determined_by_history`).

Both follow the history from call to call: a call that neither stores under a key nor removes it
makes no difference to that key.
-/

namespace ComponentDocs.RecordStore

variable {φ : Type} {store : RecordStore φ} {key : String} {record : ComponentRecord} {print : φ}

/-! ## One call -/

/-- A question to a store. -/
inductive Question (φ : Type) where
  | get (key : String)
  | isStale (key : String) (fingerprint : φ)
  | keys
  | records

/-- A call of an operation of a store. -/
inductive Call (φ : Type) where
  | insert (key : String) (record : ComponentRecord) (fingerprint : φ)
  | erase (key : String)
  | clear
  | ask (question : Question φ)

/-- The store after a call; a question leaves it as it is. -/
def next (store : RecordStore φ) : Call φ → RecordStore φ
  | .insert key record fingerprint => store.insert key record fingerprint
  | .erase key => store.erase key
  | .clear => {}
  | .ask _ => store

/-- The store after the calls of a history. -/
def run (history : List (Call φ)) : RecordStore φ := history.foldl next {}

theorem run_concat (history : List (Call φ)) (call : Call φ) :
    run (history ++ [call]) = (run history).next call :=
  List.foldl_concat ..

namespace Call

/-- Whether a call stores under a key. -/
def stores (key : String) : Call φ → Bool
  | .insert other _ _ => other = key
  | _ => false

/-- Whether a call removes what is stored under a key. -/
def removes (key : String) : Call φ → Bool
  | .erase other => other = key
  | .clear => true
  | _ => false

variable {call : Call φ}

theorem stores_iff : call.stores key ↔ ∃ record print, call = .insert key record print := by
  cases call <;> simp [stores]

end Call

/-- A call that neither stores under a key nor removes it leaves what is there. -/
theorem find?_next {call : Call φ} (hstores : call.stores key = false)
    (hremoves : call.removes key = false) : (store.next call).find? key = store.find? key := by
  cases call with
  | insert other record print =>
      exact find?_insert_of_ne fun h => by simp [Call.stores, h] at hstores
  | erase other => exact find?_erase_of_ne fun h => by simp [Call.removes, h] at hremoves
  | clear => simp [Call.removes] at hremoves
  | ask question => rfl

theorem find?_next_of_removes {call : Call φ} (hremoves : call.removes key) :
    (store.next call).find? key = none := by
  cases call with
  | insert other record print => simp [Call.removes] at hremoves
  | erase other =>
      obtain rfl : other = key := by simpa [Call.removes] using hremoves
      exact find?_erase_self
  | clear => rfl
  | ask question => simp [Call.removes] at hremoves

/-! ## Numbered calls -/

variable {history : List (Call φ)} {call : Call φ} {n m : ℕ}

/-- A call of a history with the given number removes what is stored under a key. -/
def RemovedAt (history : List (Call φ)) (key : String) (n : ℕ) : Prop :=
  ∃ call, history[n]? = some call ∧ call.removes key

/-- A call of a history with the given number stores under a key. -/
def StoredAt (history : List (Call φ)) (key : String) (n : ℕ) : Prop :=
  ∃ call, history[n]? = some call ∧ call.stores key

/-- The call with the given number is the last one to store under a key, and no later one removes
what it has stored. -/
structure LastStored (history : List (Call φ)) (key : String) (n : ℕ) (record : ComponentRecord)
    (print : φ) : Prop where
  stored : history[n]? = some (.insert key record print)
  last : ∀ m > n, ¬ StoredAt history key m
  kept : ∀ m > n, ¬ RemovedAt history key m

/-- The call with the given number is the first one to store under a key since the last one that
removed it. -/
structure FirstStored (history : List (Call φ)) (key : String) (n : ℕ) : Prop where
  stored : StoredAt history key n
  first : ∀ m < n, StoredAt history key m → ∃ l, m < l ∧ l < n ∧ RemovedAt history key l
  kept : ∀ m > n, ¬ RemovedAt history key m

theorem getElem?_concat_eq_some {c : Call φ} (hget : (history ++ [call])[n]? = some c) :
    history[n]? = some c ∨ n = history.length ∧ c = call := by
  rw [List.getElem?_append] at hget
  split at hget
  · exact .inl hget
  · next hlength =>
      rw [List.getElem?_singleton] at hget
      split at hget
      · next hzero => exact .inr ⟨by omega, (Option.some.inj hget).symm⟩
      · cases hget

theorem getElem?_concat_of_eq_some {c : Call φ} (hget : history[n]? = some c) :
    (history ++ [call])[n]? = some c := by
  rw [List.getElem?_append_left (List.getElem?_eq_some_iff.mp hget).1, hget]

theorem storedAt_of_concat (hstored : StoredAt (history ++ [call]) key n) :
    StoredAt history key n ∨ n = history.length ∧ call.stores key := by
  obtain ⟨c, hget, hstores⟩ := hstored
  exact (getElem?_concat_eq_some hget).imp (⟨c, ·, hstores⟩) fun ⟨hn, hc⟩ => ⟨hn, hc ▸ hstores⟩

theorem removedAt_of_concat (hremoved : RemovedAt (history ++ [call]) key n) :
    RemovedAt history key n ∨ n = history.length ∧ call.removes key := by
  obtain ⟨c, hget, hremoves⟩ := hremoved
  exact (getElem?_concat_eq_some hget).imp (⟨c, ·, hremoves⟩) fun ⟨hn, hc⟩ => ⟨hn, hc ▸ hremoves⟩

theorem StoredAt.concat (hstored : StoredAt history key n) (call : Call φ) :
    StoredAt (history ++ [call]) key n :=
  hstored.imp fun _ h => ⟨getElem?_concat_of_eq_some h.1, h.2⟩

theorem RemovedAt.concat (hremoved : RemovedAt history key n) (call : Call φ) :
    RemovedAt (history ++ [call]) key n :=
  hremoved.imp fun _ h => ⟨getElem?_concat_of_eq_some h.1, h.2⟩

theorem StoredAt.lt_length (hstored : StoredAt history key n) : n < history.length := by
  obtain ⟨c, hget, -⟩ := hstored
  exact (List.getElem?_eq_some_iff.mp hget).1

theorem RemovedAt.lt_length (hremoved : RemovedAt history key n) : n < history.length := by
  obtain ⟨c, hget, -⟩ := hremoved
  exact (List.getElem?_eq_some_iff.mp hget).1

/-! ## What is there -/

namespace LastStored

theorem storedAt (hlast : LastStored history key n record print) : StoredAt history key n :=
  ⟨_, hlast.stored, by simp [Call.stores]⟩

theorem of_concat_insert (history : List (Call φ)) :
    LastStored (history ++ [.insert key record print]) key history.length record print where
  stored := List.getElem?_concat_length
  last m hm hstored := by
    have hlt := hstored.lt_length
    simp at hlt
    omega
  kept m hm hremoved := by
    have hlt := hremoved.lt_length
    simp at hlt
    omega

theorem concat (hlast : LastStored history key n record print) (hstores : call.stores key = false)
    (hremoves : call.removes key = false) :
    LastStored (history ++ [call]) key n record print where
  stored := getElem?_concat_of_eq_some hlast.stored
  last m hm hstored := by
    rcases storedAt_of_concat hstored with hstored | ⟨-, hcall⟩
    · exact hlast.last m hm hstored
    · simp [hstores] at hcall
  kept m hm hremoved := by
    rcases removedAt_of_concat hremoved with hremoved | ⟨-, hcall⟩
    · exact hlast.kept m hm hremoved
    · simp [hremoves] at hcall

/-- There is only one last call to store under a key. -/
theorem unique {record' : ComponentRecord} {print' : φ}
    (hlast : LastStored history key n record print)
    (hother : LastStored history key m record' print') : record = record' ∧ print = print' := by
  obtain rfl : n = m := by
    rcases Nat.lt_trichotomy n m with hlt | heq | hlt
    · exact absurd hother.storedAt (hlast.last m hlt)
    · exact heq
    · exact absurd hlast.storedAt (hother.last n hlt)
  have hsame := hlast.stored.symm.trans hother.stored
  simp only [Option.some.injEq, Call.insert.injEq, true_and] at hsame
  exact hsame

end LastStored

/-- What is there was stored last. -/
theorem exists_lastStored_of_find? {entry : StoredRecord φ}
    (hfind : (run history).find? key = some entry) :
    entry.key = key ∧ ∃ n, LastStored history key n entry.record entry.fingerprint := by
  induction history using List.reverseRecOn with
  | nil => cases hfind
  | append_singleton history call ih =>
      rw [run_concat] at hfind
      cases hstores : call.stores key with
      | true =>
          obtain ⟨record, print, rfl⟩ := Call.stores_iff.mp hstores
          rw [next, find?_insert_self, Option.some.injEq] at hfind
          subst hfind
          exact ⟨rfl, _, .of_concat_insert history⟩
      | false =>
          cases hremoves : call.removes key with
          | true => simp [find?_next_of_removes hremoves] at hfind
          | false =>
              rw [find?_next hstores hremoves] at hfind
              obtain ⟨hkey, n, hlast⟩ := ih hfind
              exact ⟨hkey, n, hlast.concat hstores hremoves⟩

/-- If nothing is there, all that was stored has been removed. -/
theorem exists_removedAt_of_find?_eq_none (hfind : (run history).find? key = none)
    (hstored : StoredAt history key n) : ∃ m > n, RemovedAt history key m := by
  induction history using List.reverseRecOn with
  | nil => obtain ⟨call, hget, -⟩ := hstored; simp at hget
  | append_singleton history call ih =>
      rw [run_concat] at hfind
      have hstores : call.stores key = false := by
        rw [← Bool.not_eq_true]
        intro hstores
        obtain ⟨record, print, rfl⟩ := Call.stores_iff.mp hstores
        rw [next, find?_insert_self] at hfind
        cases hfind
      have hstored : StoredAt history key n := by
        rcases storedAt_of_concat hstored with hstored | ⟨-, hcall⟩
        · exact hstored
        · simp [hstores] at hcall
      cases hremoves : call.removes key with
      | true =>
          exact ⟨history.length, hstored.lt_length, call, List.getElem?_concat_length, hremoves⟩
      | false =>
          rw [find?_next hstores hremoves] at hfind
          obtain ⟨m, hm, hremoved⟩ := ih hfind hstored
          exact ⟨m, hm, hremoved.concat call⟩

/-- **What is there is what was stored last**, unless it has been removed. -/
theorem find?_eq_some_iff :
    (run history).find? key = some ⟨key, record, print⟩ ↔
      ∃ n, LastStored history key n record print := by
  constructor
  · exact fun hfind => (exists_lastStored_of_find? hfind).2
  · rintro ⟨n, hlast⟩
    cases hfind : (run history).find? key with
    | none =>
        obtain ⟨m, hm, hremoved⟩ := exists_removedAt_of_find?_eq_none hfind hlast.storedAt
        exact absurd hremoved (hlast.kept m hm)
    | some entry =>
        obtain ⟨hkey, m, hother⟩ := exists_lastStored_of_find? hfind
        obtain ⟨hrecord, hprint⟩ := hlast.unique hother
        rw [hrecord, hprint, ← hkey]

theorem exists_find?_iff :
    (∃ entry, (run history).find? key = some entry) ↔
      ∃ n record print, LastStored history key n record print := by
  constructor
  · rintro ⟨entry, hfind⟩
    obtain ⟨-, n, hlast⟩ := exists_lastStored_of_find? hfind
    exact ⟨n, _, _, hlast⟩
  · rintro ⟨n, record, print, hlast⟩
    exact ⟨_, find?_eq_some_iff.mpr ⟨n, hlast⟩⟩

/-! ## The order of the keys -/

namespace FirstStored

theorem concat (hfirst : FirstStored history key n) (hremoves : call.removes key = false) :
    FirstStored (history ++ [call]) key n where
  stored := hfirst.stored.concat call
  first m hm hstored := by
    have hlt := Nat.lt_trans hm hfirst.stored.lt_length
    rcases storedAt_of_concat hstored with hstored | ⟨rfl, -⟩
    · obtain ⟨l, hml, hln, hremoved⟩ := hfirst.first m hm hstored
      exact ⟨l, hml, hln, hremoved.concat call⟩
    · exact absurd hlt (Nat.lt_irrefl _)
  kept m hm hremoved := by
    rcases removedAt_of_concat hremoved with hremoved | ⟨-, hcall⟩
    · exact hfirst.kept m hm hremoved
    · simp [hremoves] at hcall

/-- A call that stores under a key where nothing is comes first. -/
theorem of_concat_insert (hfind : (run history).find? key = none) :
    FirstStored (history ++ [.insert key record print]) key history.length where
  stored := ⟨_, List.getElem?_concat_length, by simp [Call.stores]⟩
  first m hm hstored := by
    have hstored : StoredAt history key m := by
      rcases storedAt_of_concat hstored with hstored | ⟨rfl, -⟩
      · exact hstored
      · exact absurd hm (Nat.lt_irrefl _)
    obtain ⟨l, hml, hremoved⟩ := exists_removedAt_of_find?_eq_none hfind hstored
    exact ⟨l, hml, hremoved.lt_length, hremoved.concat _⟩
  kept m hm hremoved := by
    have hlt := hremoved.lt_length
    simp at hlt
    omega

end FirstStored

/-- The keys of a store with the numbers of the calls that put them where they stand. -/
structure Placed (history : List (Call φ)) (placed : List (ℕ × String)) : Prop where
  keys_eq : placed.map Prod.snd = (run history).keys
  ordered : (placed.map Prod.fst).Pairwise (· < ·)
  firstStored : ∀ p ∈ placed, FirstStored history p.2 p.1

namespace Placed

variable {placed : List (ℕ × String)}

/-- A call that puts no key behind the others leaves those that it does not remove in order. -/
theorem filter (hplaced : Placed history placed) (keep : String → Bool)
    (hkeys : ((run history).next call).keys = (run history).keys.filter keep)
    (hremoves : ∀ key, keep key → call.removes key = false) :
    Placed (history ++ [call]) (placed.filter fun p => keep p.2) where
  keys_eq := by
    rw [run_concat, hkeys, ← hplaced.keys_eq, List.filter_map]
    rfl
  ordered := hplaced.ordered.sublist (List.filter_sublist.map Prod.fst)
  firstStored p hp := by
    obtain ⟨hmem, hkeep⟩ := List.mem_filter.mp hp
    exact (hplaced.firstStored p hmem).concat (hremoves _ hkeep)

/-- A new key comes behind the others. -/
theorem concat (hplaced : Placed history placed) (hfind : (run history).find? key = none)
    (hkeys : (run (history ++ [.insert key record print])).keys = (run history).keys ++ [key]) :
    Placed (history ++ [.insert key record print]) (placed ++ [(history.length, key)]) where
  keys_eq := by rw [List.map_append, hplaced.keys_eq, hkeys]; rfl
  ordered := by
    rw [List.map_append, List.pairwise_append]
    refine ⟨hplaced.ordered, List.pairwise_singleton _ _, fun n hn m hm => ?_⟩
    obtain ⟨p, hp, rfl⟩ := List.mem_map.mp hn
    obtain rfl := List.mem_singleton.mp hm
    exact (hplaced.firstStored p hp).stored.lt_length
  firstStored p hp := by
    rcases List.mem_append.mp hp with hmem | hlast
    · exact (hplaced.firstStored p hmem).concat rfl
    · obtain rfl := List.mem_singleton.mp hlast
      exact .of_concat_insert hfind

end Placed

/-- **The keys stand in the order of the calls that first stored under them** since they were last
removed. -/
theorem exists_placed (history : List (Call φ)) : ∃ placed, Placed history placed := by
  induction history using List.reverseRecOn with
  | nil => exact ⟨[], rfl, List.Pairwise.nil, fun _ hp => absurd hp List.not_mem_nil⟩
  | append_singleton history call ih =>
      obtain ⟨placed, hplaced⟩ := ih
      cases call with
      | insert key record print =>
          have hkeys : ((run history).insert key record print).keys =
              if key ∈ (run history).keys then (run history).keys
              else (run history).keys ++ [key] := keys_insert
          by_cases hkey : key ∈ (run history).keys
          · rw [if_pos hkey] at hkeys
            exact ⟨_, hplaced.filter (fun _ => true) (by rw [next, hkeys, List.filter_true])
              fun _ _ => rfl⟩
          · rw [if_neg hkey] at hkeys
            exact ⟨_, hplaced.concat (find?_eq_none_iff.mpr hkey) (by rw [run_concat, next, hkeys])⟩
      | erase key =>
          refine ⟨_, hplaced.filter (· ≠ key) keys_erase fun other hother => ?_⟩
          exact decide_eq_false (Ne.symm (of_decide_eq_true hother))
      | clear =>
          exact ⟨_, hplaced.filter (fun _ => false) (by rw [List.filter_false]; rfl)
            fun _ h => by simp at h⟩
      | ask question =>
          exact ⟨_, hplaced.filter (fun _ => true) (by rw [next, List.filter_true])
            fun _ _ => rfl⟩

theorem nodup_keys_run (history : List (Call φ)) : (run history).keys.Nodup := by
  obtain ⟨placed, hplaced⟩ := exists_placed history
  rw [← hplaced.keys_eq, List.nodup_iff_pairwise_ne, List.pairwise_map]
  refine (List.pairwise_map.mp hplaced.ordered).imp_of_mem fun {p q} hp hq hlt hsame => ?_
  -- the later place would be the first one only if the key had been removed in between
  have hlater := hplaced.firstStored q hq
  rw [← hsame] at hlater
  obtain ⟨l, hl, -, hremoved⟩ := hlater.first p.1 hlt (hplaced.firstStored p hp).stored
  exact (hplaced.firstStored p hp).kept l hl hremoved

/-- **A store is what its history makes of it.**  Under a key there is the record that was stored
last and not removed after that, and it is stale just for another fingerprint than the one that it
was stored with.  The keys are those of all such records, each once and in the order in which they
were first stored since they were last removed, and the records stand in the same order.  Questions
make no difference. -/
theorem determined_by_history [DecidableEq φ] (history : List (Call φ)) (key : String) :
    let store := run history
    (∀ record, store.get? key = some record ↔
      ∃ n print, LastStored history key n record print) ∧
    (∀ print, store.isStale key print ↔
      ∃ n record other, LastStored history key n record other ∧ other ≠ print) ∧
    (key ∈ store.keys ↔ ∃ n record print, LastStored history key n record print) ∧
    store.keys.Nodup ∧
    (∃ places : List ℕ, List.Forall₂ (FirstStored history) store.keys places ∧
      places.Pairwise (· < ·)) ∧
    store.records.map some = store.keys.map store.get? ∧
    ∀ before question after, history = before ++ .ask question :: after →
      run (before ++ after) = store := by
  intro store
  refine ⟨fun record => ?_, fun print => ?_, ?_, nodup_keys_run history, ?_,
    records_map_some (nodup_keys_run history), ?_⟩
  · rw [get?, Option.map_eq_some_iff]
    constructor
    · rintro ⟨entry, hfind, rfl⟩
      obtain ⟨-, n, hlast⟩ := exists_lastStored_of_find? hfind
      exact ⟨n, _, hlast⟩
    · rintro ⟨n, print, hlast⟩
      exact ⟨_, find?_eq_some_iff.mpr ⟨n, hlast⟩, rfl⟩
  · rw [isStale]
    constructor
    · intro hstale
      cases hfind : store.find? key with
      | none => simp [hfind] at hstale
      | some entry =>
          obtain ⟨-, n, hlast⟩ := exists_lastStored_of_find? hfind
          exact ⟨n, _, _, hlast, by simpa [hfind] using hstale⟩
    · rintro ⟨n, record, other, hlast, hother⟩
      simpa [store, find?_eq_some_iff.mpr ⟨n, hlast⟩] using hother
  · rw [← exists_find?_iff, ← contains_iff, contains, Option.isSome_iff_exists]
  · obtain ⟨placed, hplaced⟩ := exists_placed history
    refine ⟨placed.map Prod.fst, ?_, hplaced.ordered⟩
    show List.Forall₂ (FirstStored history) (run history).keys _
    rw [← hplaced.keys_eq, List.forall₂_map_left_iff, List.forall₂_map_right_iff,
      List.forall₂_same]
    exact hplaced.firstStored
  · rintro before question after rfl
    simp only [store, run, List.foldl_append, List.foldl_cons, next]

end ComponentDocs.RecordStore
