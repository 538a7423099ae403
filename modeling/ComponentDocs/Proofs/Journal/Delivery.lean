import Mathlib.Data.List.Nodup
import Mathlib.Data.String.Basic
import ComponentDocs.Journal
import ComponentDocs.Proofs.Files.Contents

/-!
# How a record is delivered

Each channel of a journal has the root exactly once among the channels that it passes its records
on to (`count_root_upward`), so each sink gets a record once.  What a journal has been told last is
all that counts: its old sinks are gone (`configure_told`).  So a record that reaches the threshold
is shown on the console and added to the file, and another one is not (`write_told`).
-/

namespace ComponentDocs

namespace Journal

/-! ## Channels -/

theorem mem_beforeDots_iff {part cs : List Char} :
    part ∈ beforeDots cs ↔ part ++ ['.'] <+: cs := by
  induction cs generalizing part with
  | nil => simp [beforeDots]
  | cons c rest ih =>
      rw [beforeDots, List.mem_append, List.mem_map]
      cases part with
      | nil =>
          by_cases hdot : c = '.'
          · simp [hdot]
          · simp [hdot, Ne.symm hdot]
      | cons d part =>
          rw [List.cons_append, List.cons_prefix_cons, ← ih]
          by_cases hdot : c = '.' <;> simp [hdot, and_comm, eq_comm]

theorem nodup_beforeDots (cs : List Char) : (beforeDots cs).Nodup := by
  induction cs with
  | nil => exact List.nodup_nil
  | cons c rest ih =>
      have hrest : ((beforeDots rest).map (c :: ·)).Nodup :=
        ih.map fun _ _ h => (List.cons.inj h).2
      rw [beforeDots]
      split
      · exact List.nodup_cons.mpr ⟨by simp, hrest⟩
      · exact hrest

/-- Going upward, no channel comes twice. -/
theorem nodup_upward (channel : String) : (upward channel).Nodup := by
  refine List.nodup_cons.mpr ⟨fun hself => ?_, ?_⟩
  · obtain ⟨part, hpart, rfl⟩ := List.mem_map.mp hself
    have hshorter := (mem_beforeDots_iff.mp (List.mem_reverse.mp hpart)).length_le
    simp at hshorter
  · exact (List.nodup_reverse.mpr (nodup_beforeDots _)).map fun _ _ => String.ofList_injective

/-- **Every channel leads to the root, and only once.** -/
theorem count_root_upward (name : Option String) : (upward (channel name)).count root = 1 := by
  refine List.count_eq_one_of_mem (nodup_upward _) ?_
  have hroot : root ∈ upward root := List.mem_cons_self
  rcases name with _ | name
  · exact hroot
  · by_cases hname : name = ""
    · rwa [channel, if_pos hname]
    · refine List.mem_cons_of_mem _ (List.mem_map.mpr ⟨root.toList, ?_, String.ofList_toList⟩)
      rw [channel, if_neg hname, List.mem_reverse, mem_beforeDots_iff]
      exact ⟨name.toList, by simp⟩

theorem flatMap_sinksOf (j : Journal) (channels : List String) :
    channels.flatMap j.sinksOf = (List.replicate (channels.count root) j.sinks).flatten := by
  induction channels with
  | nil => rfl
  | cons channel rest ih =>
      rw [List.flatMap_cons, ih, sinksOf]
      by_cases hroot : channel = root
      · rw [if_pos hroot, hroot, List.count_cons_self, List.replicate_succ, List.flatten_cons]
      · rw [if_neg hroot, List.count_cons_of_ne hroot, List.nil_append]

/-- A record goes to each sink of the journal once. -/
theorem write_eq_foldl (j : Journal) (fs : FileSystem) (moment : String) (time : Int)
    {r : JournalRecord} {name : Option String} (hchannel : r.channel = channel name) :
    j.write fs moment time r =
      if j.writes r.level then j.sinks.foldl (deliver moment time r) ("", fs) else ("", fs) := by
  rw [write, hchannel, flatMap_sinksOf, count_root_upward, List.replicate_one,
    List.flatten_singleton]

/-! ## What a journal has been told -/

/-- What a journal is told: which records to write, and to which file, if any. -/
structure Setting where
  threshold : Level
  file : Option Path

/-- The journal that has been told something. -/
def told (s : Setting) : Journal :=
  ⟨some s.threshold, ⟨.console, s.threshold⟩ :: s.file.toList.map fun p => ⟨.file p, s.threshold⟩⟩

theorem foldl_detach (threshold : Option Level) (sinks : List Sink) :
    sinks.foldl detach ⟨threshold, sinks⟩ = ⟨threshold, []⟩ := by
  induction sinks with
  | nil => rfl
  | cons s rest ih => rw [List.foldl_cons, detach, List.erase_cons_head, ih]

/-- The file systems with a file opened, if there is one to open. -/
def opened (fs : FileSystem) (file : Option Path) (time : Int) : Except FileError FileSystem :=
  match file with
  | none => .ok fs
  | some p => fs.append p [] time

/-- **What a journal is told replaces whatever it was told before.** -/
theorem configure_told (j : Journal) {fs gs : FileSystem} (verbose : Bool) {file : Option Path}
    {time : Int} (hopened : opened fs (file.map fs.resolve) time = .ok gs) :
    j.configure fs verbose file time =
      (none, told ⟨if verbose then .debug else .info, file.map fs.resolve⟩, gs) := by
  simp only [configure, foldl_detach]
  cases file with
  | none =>
      cases hopened
      rfl
  | some file =>
      have happend : fs.append (fs.resolve file) [] time = .ok gs := hopened
      simp only [happend]
      rfl

/-- A record is shown on the console, and added to the file, if it reaches the threshold. -/
theorem write_told (s : Setting) (fs : FileSystem) (moment : String) (time : Int)
    {r : JournalRecord} {name : Option String} (hchannel : r.channel = channel name) :
    (told s).write fs moment time r =
      if s.threshold ≤ r.level then
        (consoleLine r, s.file.elim fs fun p =>
          ((fs.append p (Text.bytesOf (fileLine moment r)) time).toOption).getD fs)
      else ("", fs) := by
  rw [write_eq_foldl _ _ _ _ hchannel]
  obtain ⟨threshold, file⟩ := s
  by_cases hlevel : threshold ≤ r.level
  · have hwrites : (told ⟨threshold, file⟩).writes r.level = true := decide_eq_true hlevel
    rw [if_pos hwrites, if_pos hlevel]
    cases file with
    | none => simp [told, deliver, hlevel]
    | some p =>
        simp only [told, Option.toList_some, List.map_cons, List.map_nil, List.foldl_cons,
          List.foldl_nil, deliver, if_pos hlevel, Option.elim_some, String.empty_append]
        cases fs.append p (Text.bytesOf (fileLine moment r)) time <;> rfl
  · have hwrites : ¬ (told ⟨threshold, file⟩).writes r.level = true := by
      simpa [told, writes] using hlevel
    rw [if_neg hwrites, if_neg hlevel]

end Journal

end ComponentDocs
