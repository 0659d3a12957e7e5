/-
`HandleSink::append_journal`: the remediation journal in the vault.

An append reads the journal, adds a line and writes the whole file. A
read that fails counts as an empty journal: where there was one, the
write replaces it by the new line alone.

`to_vec` of an entry is a parameter. The texts that `ApplyError::Sink`
puts before an error of the vault are left out.
-/
import SovereignVault.Containers
import SovereignVault.FileStore
import SovereignVault.Remediate.Apply

namespace SovereignVault.HandleSink

open Crash Prog Storage
open Remediate (JournalEntry)

-- ==== the sink

def REMEDIATE_CONTAINER : String := "sv-remediate"

def JOURNAL : BlobPath := (REMEDIATE_CONTAINER, "remediate-journal.jsonl")

def ensureContainer (v : Vault) : VaultM Unit := do
  let info ← listContainers v
  if info.any fun c => c.name = REMEDIATE_CONTAINER then
    pure ()
  else
    createContainer v REMEDIATE_CONTAINER .direct
      (some "Remediation snapshots, recovery records, journal")

def readJournal (v : Vault) : VaultM (Except CoreError Bytes) := do
  ensureContainer v
  (readFile v JOURNAL).attempt

/-- `unwrap_or_default`: a failed read is an empty journal. -/
def writeJournal (v : Vault) (line : Bytes) (read : Except CoreError Bytes) : VaultM Unit :=
  writeFile v JOURNAL (read.toOption.getD [] ++ line)

def journalLine (toVec : JournalEntry → Bytes) (entry : JournalEntry) : Bytes :=
  toVec entry ++ [10]

def appendJournal (toVec : JournalEntry → Bytes) (v : Vault)
    (entry : JournalEntry) : VaultM Unit := do
  let read ← readJournal v
  writeJournal v (journalLine toVec entry) read

-- ==== what happened

structure Append where
  before : World
  entry : JournalEntry
  read : Option (Except CoreError Bytes)
  result : Except CoreError Unit
  after : World

section

variable (toVec : JournalEntry → Bytes) (F : Faults World CoreError) (v : Vault)

inductive Append.Happens : Append → Prop where
  | unready {w w' entry e} (h : Returns F (readJournal v) w (.error e) w') :
      Happens ⟨w, entry, none, .error e, w'⟩
  | wrote {w w₁ w' entry read r} (hread : Returns F (readJournal v) w (.ok read) w₁)
      (hwrite : Returns F (writeJournal v (journalLine toVec entry) read) w₁ r w') :
      Happens ⟨w, entry, some read, r, w'⟩

inductive Appends (w₀ : World) : List Append → World → Prop where
  | nil : Appends w₀ [] w₀
  | step {h : List Append} {a : Append} (hrun : Appends w₀ h a.before)
      (ha : a.Happens toVec F v) : Appends w₀ (a :: h) a.after

/-- The call returned an error and left the journal, or it left the
journal with its line at the end. -/
def Append.Grows (a : Append) : Prop :=
  ((∃ e, a.result = .error e) ∧ a.after.files.lookup JOURNAL = a.before.files.lookup JOURNAL)
  ∨ ∃ o, HoldsAt v a.before JOURNAL o ∧ HoldsAt v a.after JOURNAL
      (some (o.getD [] ++ journalLine toVec a.entry))

end

/-- No read of a journal that is there failed. -/
def Append.Sound (a : Append) : Prop :=
  ∀ e, a.read = some (.error e) → a.before.files.lookup JOURNAL = none

variable {toVec : JournalEntry → Bytes} {F : Faults World CoreError} {v : Vault} {w w' : World}

/-- Every run of the program is a call so described. -/
theorem happens_of_returns {entry : JournalEntry} {r : Except CoreError Unit}
    (h : Returns F (appendJournal toVec v entry) w r w') :
    ∃ read, Append.Happens toVec F v ⟨w, entry, read, r, w'⟩ := by
  rcases Returns.bind_inv h with ⟨e, rfl, hr⟩ | ⟨read, w₁, hr, hw⟩
  · exact ⟨none, .unready hr⟩
  · exact ⟨some read, .wrote hr hw⟩

-- ==== one call

def Kept (w w' : World) : Prop :=
  w'.files = w.files ∧ w.containers ⊆ w'.containers

theorem Kept.holdsAt {o : Option Bytes} (hkept : Kept w w')
    (h : HoldsAt v w JOURNAL o) : HoldsAt v w' JOURNAL o := by
  obtain ⟨hfiles, hsub⟩ := hkept
  cases o with
  | none =>
    rw [HoldsAt, hfiles]
    exact h
  | some b =>
    obtain ⟨hc, version, dek, hkey, hraw⟩ := h
    refine ⟨hsub hc, version, dek, hkey, ?_⟩
    rw [hfiles]
    exact hraw

theorem stable_ensureContainer : Stable (Kept w) (ensureContainer v) := by
  refine stable_bind ?_ fun info => ?_
  · refine stable_bind (observes_readManifest _).stable fun _ => ?_
    exact stable_bind observes_get.stable fun _ => stable_ret _
  · split
    · exact stable_ret _
    · intro F w₁ hw₁
      refine wp_createContainer hw₁ (fun _ => hw₁) fun m _ _ _ => ⟨⟨hw₁, fun _ => hw₁⟩, ?_⟩
      have hmade := List.subset_cons_of_subset REMEDIATE_CONTAINER hw₁.2
      exact ⟨⟨hw₁.1, hmade⟩, fun _ => ⟨hw₁.1, hmade⟩⟩

theorem readJournal_returns {r : Except CoreError (Except CoreError Bytes)}
    (h : Returns F (readJournal v) w r w') :
    Kept w w' ∧ ∀ b, r = .ok (.ok b) → readOf v JOURNAL w' = .ok b := by
  have hstart : Kept w w := ⟨rfl, List.Subset.refl _⟩
  rcases Returns.bind_inv h with ⟨e, rfl, hr⟩ | ⟨_, w₁, hr, hread⟩
  · exact ⟨stable_ensureContainer.returns hstart hr, nofun⟩
  · have hw₁ := stable_ensureContainer.returns hstart hr
    have hwp : wp F (fun _ => True) (readFile v JOURNAL).attempt (fun r w₂ => w₂ = w₁
          ∧ ∀ b, r = .ok (.ok b) → readOf v JOURNAL w₁ = .ok b) w₁ := by
      rw [wp_attempt]
      refine observes_readFile v JOURNAL F _ _ w₁ trivial
        ⟨rfl, fun b hb => Except.ok.inj hb⟩ fun _ e => ⟨rfl, nofun⟩
    obtain ⟨rfl, hb⟩ := hwp.returns hread
    exact ⟨hw₁, hb⟩

theorem writeFile_returns {path : BlobPath} {bytes : Bytes}
    {r : Except CoreError Unit} (h : Returns F (writeFile v path bytes) w r w') :
    ((∃ e, r = .error e) ∧ w' = w) ∨ HoldsAt v w' path (some bytes) := by
  have hkey : v.keys v.activeVersion = some v.activeDek := by simp [Vault.activeDek]
  have hwp : wp F (fun _ => True) (writeFile v path bytes)
      (fun r w' => ((∃ e, r = .error e) ∧ w' = w)
        ∨ HoldsAt v w' path (some bytes)) w :=
    wp_writeFile trivial (fun e => .inl ⟨⟨e, rfl⟩, rfl⟩) fun _ hc =>
      ⟨trivial, fun _ => .inr ⟨hc, _, _, hkey, AList.lookup_insert _⟩⟩
  exact hwp.returns h

theorem journal_valid : ValidPath JOURNAL := rfl

theorem Append.Happens.grows {a : Append} (ha : a.Happens toVec F v) (hsound : a.Sound)
    {o : Option Bytes} (ho : HoldsAt v a.before JOURNAL o) : ((∃ e, a.result = .error e)
      ∧ a.after.files.lookup JOURNAL = a.before.files.lookup JOURNAL
      ∧ HoldsAt v a.after JOURNAL o)
    ∨ HoldsAt v a.after JOURNAL (some (o.getD [] ++ journalLine toVec a.entry)) := by
  cases ha with
  | unready h =>
    obtain ⟨hkept, -⟩ := readJournal_returns h
    exact .inl ⟨⟨_, rfl⟩, by rw [hkept.1], hkept.holdsAt ho⟩
  | @wrote w w₁ w' entry read r hread hwrite =>
    obtain ⟨hkept, hb⟩ := readJournal_returns hread
    have ho₁ := hkept.holdsAt ho
    rcases writeFile_returns hwrite with ⟨herror, rfl⟩ | hnew
    · exact .inl ⟨herror, by rw [hkept.1], ho₁⟩
    · -- what was read is what was there
      have hsame : read.toOption.getD [] = o.getD [] := by
        cases read with
        | ok b =>
          rw [ho₁.eq_of_readOf journal_valid (hb b rfl)]
          rfl
        | error e =>
          cases o with
          | none => rfl
          | some b =>
            obtain ⟨-, _, _, -, hraw⟩ := ho
            have habsent := hsound e rfl
            rw [hraw] at habsent
            cases habsent
      rw [hsame] at hnew
      exact .inr hnew

/-- The journal only grows, as long as no read of it fails: every call
appends its line or returns an error and leaves the journal, and the
journal of every later time begins with that of the start. -/
theorem journal_grows (toVec : JournalEntry → Bytes) (F : Faults World CoreError) (v : Vault)
    (w₀ w : World) (h : List Append) (o₀ : Option Bytes) (hstart : HoldsAt v w₀ JOURNAL o₀)
    (hrun : Appends toVec F v w₀ h w) (hsound : ∀ a ∈ h, a.Sound) : (∀ a ∈ h, a.Grows toVec v)
    ∧ ∃ o, HoldsAt v w JOURNAL o ∧ o₀.getD [] <+: o.getD [] := by
  induction hrun with
  | nil => exact ⟨fun _ hmem => absurd hmem List.not_mem_nil, o₀, hstart, List.prefix_rfl⟩
  | @step h a _ ha ih =>
    rw [List.forall_mem_cons] at hsound ⊢
    obtain ⟨hgrown, o, ho, hprefix⟩ := ih hsound.2
    rcases ha.grows hsound.1 ho with ⟨herror, hsame, ho'⟩ | ho'
    · exact ⟨⟨.inl ⟨herror, hsame⟩, hgrown⟩, o, ho', hprefix⟩
    · exact ⟨⟨.inr ⟨o, ho, ho'⟩, hgrown⟩, _, ho', hprefix.trans (List.prefix_append _ _)⟩

namespace Sample

def vault : Vault := singleKeyVault (.generate 0) (.generate 2)

def sinkRoot : World := { World.empty with
  manifest := some (authenticated (.generate 2) defaultManifest)
  containers := [REMEDIATE_CONTAINER] }

def bytesOf (entry : JournalEntry) : Bytes := [UInt8.ofNat entry.recordedAt]

def scheduled (faults : List (Option CoreError)) (w : World) (time : Nat) : Append :=
  let entry : JournalEntry := ⟨[], .rolledBack, time⟩
  match (readJournal vault).exec faults w with
  | (.error e, w') => ⟨w, entry, none, .error e, w'⟩
  | (.ok found, w₁) =>
    let r := (writeJournal vault (journalLine bytesOf entry) found).run w₁
    ⟨w, entry, some found, r.1, r.2⟩

theorem scheduled_happens (faults : List (Option CoreError))
    (w : World) (time : Nat) : (scheduled faults w time).Happens bytesOf Faults.any vault := by
  have hread := exec_returns (readJournal vault) faults w
  unfold scheduled
  split
  · next e w' heq =>
    rw [heq] at hread
    exact .unready hread
  · next found w₁ heq =>
    rw [heq] at hread
    exact .wrote hread (run_returns _ _ _)

def first : Append := scheduled [] sinkRoot 1

def second : Append :=
  scheduled [none, none, none, some (.storage (.io "Input/output error"))]
    first.after 2

def secondRead : Append := scheduled [] first.after 2

end Sample

open Sample

theorem journal_grows_sample :
    ∃ o, HoldsAt vault secondRead.after JOURNAL o ∧ [1, 10] <+: o.getD [] := by
  refine (journal_grows bytesOf Faults.any vault first.after _ _ (some [1, 10])
    ⟨.head _, 1, .generate 0, rfl, rfl⟩ (.step .nil (scheduled_happens [] _ 2)) ?_).2
  refine List.forall_mem_singleton.2 fun e he => ?_
  have hok : secondRead.read = some (.ok [1, 10]) := rfl
  cases hok.symm.trans he

/-- The read of the second call fails, the call returns without an error,
and the line of the first is gone. -/
theorem journal_replaced : Appends bytesOf Faults.any vault sinkRoot [second, first] second.after
    ∧ second.result = .ok ()
    ∧ HoldsAt vault second.before JOURNAL (some [1, 10])
    ∧ HoldsAt vault second.after JOURNAL (some [2, 10])
    ∧ ¬ second.Grows bytesOf vault := by
  have hbefore : HoldsAt vault second.before JOURNAL (some [1, 10]) :=
    ⟨.head _, 1, .generate 0, rfl, rfl⟩
  have hafter : HoldsAt vault second.after JOURNAL (some [2, 10]) :=
    ⟨.head _, 1, .generate 0, rfl, rfl⟩
  refine ⟨.step (.step .nil (scheduled_happens ..)) (scheduled_happens ..),
    rfl, hbefore, hafter, ?_⟩
  have hread (w : World) (o : Option Bytes) (b : Bytes)
      (ho : HoldsAt vault w JOURNAL o) (hb : HoldsAt vault w JOURNAL (some b)) : o = some b :=
    ho.eq_of_readOf journal_valid ((hb.readOf_ok_iff journal_valid b).2 rfl)
  rintro (⟨⟨e, he⟩, -⟩ | ⟨o, ho, ho'⟩)
  · cases he
  · rw [hread _ _ _ ho hbefore] at ho'
    have hgrown := Option.some.inj (hread _ _ _ ho' hafter)
    revert hgrown
    decide

end SovereignVault.HandleSink
