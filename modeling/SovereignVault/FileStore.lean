/-
The encrypted files of a vault as a map from paths to bytes.

`Represents v m w` says that the blobs of `w` at valid paths are, for the
handle `v`, exactly the map `m`: each is an envelope for its own path
under a key version `v` holds. `write_file` and `delete_file` are the
map's updates, `rewrap_file` is no update at all, and `read_file` is the
map's lookup.

Against someone who moves blobs about, less is left: `Owned S w` says
that every blob was sealed for some path with bytes that `S` allows there.
A read opens an envelope only for the path it was sealed for, because
`aad_for` is injective on valid paths.
-/
import SovereignVault.Crash.Run
import SovereignVault.Storage

namespace SovereignVault

open Crash Function AList Option

namespace Storage

open Prog

variable {path : BlobPath} {w : World} {v : Vault}

-- ==== the path encoding

private theorem append_sep_inj {α : Type} {a : α} {l₁ l₂ r₁ r₂ : List α} (h₁ : a ∉ l₁)
    (h₂ : a ∉ l₂) (h : l₁ ++ a :: r₁ = l₂ ++ a :: r₂) : l₁ = l₂ ∧ r₁ = r₂ := by
  obtain ⟨c, rfl, hc⟩ | ⟨c, rfl, hc⟩ := List.append_eq_append_iff.1 h
  all_goals cases c <;> simp_all

theorem slash_notMem_container {name : String}
    (h : isValidContainerName name) : '/' ∉ name.toList := by
  intro hmem
  simp only [isValidContainerName, Bool.and_eq_true, List.all_eq_true] at h
  have hslash := h.2 '/' hmem
  revert hslash
  decide

variable {p q : BlobPath} {o : Option Bytes}

theorem aadFor_injective (hp : isValidContainerName p.1)
    (hq : isValidContainerName q.1) (h : aadFor p = aadFor q) : p = q := by
  have hlist : p.1.toList ++ '/' :: p.2.toList = q.1.toList ++ '/' :: q.2.toList := by
    have := congrArg String.toList h
    simpa [aadFor] using this
  obtain ⟨h₁, h₂⟩ := append_sep_inj (slash_notMem_container hp) (slash_notMem_container hq) hlist
  exact Prod.ext (String.toList_inj.1 h₁) (String.toList_inj.1 h₂)

abbrev ValidPath (path : BlobPath) : Prop := validatePath path = .ok ()

theorem aadFor_inj (hp : ValidPath p) (hq : ValidPath q) (h : aadFor p = aadFor q) : p = q :=
  aadFor_injective (validateContainerName_ok.1 (validateContainerName_of_path hp))
    (validateContainerName_ok.1 (validateContainerName_of_path hq)) h

theorem openFile_sealFile_ok {version : Nat} {dek : MasterKey} {a b : Bytes} (hp : ValidPath p)
    (hq : ValidPath q) (h : openFile v p (sealFile version dek q b) = .ok a) : p = q ∧ a = b := by
  simp only [openFile, sealFile, ne_eq, not_true_eq_false, if_false] at h
  split at h
  · cases h
  next key _ =>
  cases hopen : aeadOpen key (aeadSeal dek b (aadFor q)) (aadFor p) with
  | error e =>
    rw [hopen] at h
    cases h
  | ok a' =>
    rw [hopen] at h
    obtain rfl : a' = a := Except.ok.inj h
    have hs := aeadOpen_ok_iff.1 hopen
    simp only [aeadSeal, Sealed.mk.injEq] at hs
    exact ⟨aadFor_inj hp hq hs.2.2.symm, hs.2.1.symm⟩

-- ==== the calls

inductive FileCall where
  | writeFile (v : Vault) (path : BlobPath) (plaintext : Bytes)
  | deleteFile (path : BlobPath)
  | rewrapFile (v : Vault) (path : BlobPath)

def FileCall.prog : FileCall → VaultM Unit
  | .writeFile v path plaintext => Storage.writeFile v path plaintext
  | .deleteFile path => Storage.deleteFile path
  | .rewrapFile v path => do
    let _ ← Storage.rewrapFile v path

def fileStore : Service World CoreError FileCall Unit where
  prog _ call := some call.prog
  reset := World.crashed

def FileCall.Covered (v : Vault) : FileCall → Prop
  | .writeFile u _ _ | .rewrapFile u _ => v.keys u.activeVersion = some u.activeDek
  | .deleteFile _ => True

-- ==== the abstract store

/-- What a vault's files are for: bytes under a path. -/
abbrev FileMap := BlobPath → Option Bytes

def FileCall.apply (m : FileMap) : FileCall → FileMap
  | .writeFile _ path plaintext => update m path (some plaintext)
  | .deleteFile path => update m path none
  | .rewrapFile _ _ => m

/-- A call that returned a value has taken effect; one that failed or
crashed has or has not. -/
def Follows (m : FileMap) (call : FileCall) : Outcome CoreError Unit → FileMap → Prop
  | .returned (.ok _), m' => m' = call.apply m
  | .returned (.error _), m' | .crashed, m' => m' = m ∨ m' = call.apply m

/-- The maps a history of calls, latest first, can lead to. -/
def Traces (m₀ : FileMap) : List (Event World CoreError FileCall Unit) → FileMap → Prop
  | [], m => m = m₀
  | e :: h, m => ∃ m₁, Traces m₀ h m₁ ∧ Follows m₁ e.call e.outcome m

def HoldsAt (v : Vault) (w : World) (path : BlobPath) : Option Bytes → Prop
  | none => w.files.lookup path = none
  | some plaintext => path.1 ∈ w.containers ∧ ∃ version dek, v.keys version = some dek
        ∧ w.files.lookup path = some (sealFile version dek path plaintext)

/-- The blobs of `w` at valid paths are the map `m`, for the handle
`v`. -/
def Represents (v : Vault) (m : FileMap) (w : World) : Prop :=
  ∀ path, ValidPath path → HoldsAt v w path (m path)

theorem HoldsAt.readOf_ok_iff (hp : ValidPath path)
    (h : HoldsAt v w path o) (b : Bytes) : readOf v path w = .ok b ↔ o = some b := by
  cases o with
  | none =>
    have habsent : w.files.lookup path = none := h
    have herr : ∃ e, readOf v path w = .error e := by
      unfold readOf
      rw [hp, habsent]
      by_cases hc : path.1 ∈ w.containers
      · rw [if_pos hc]
        exact ⟨_, rfl⟩
      · rw [if_neg hc]
        exact ⟨_, rfl⟩
    obtain ⟨e, he⟩ := herr
    rw [he]
    constructor
    · intro h
      cases h
    · intro h
      cases h
  | some a =>
    obtain ⟨hc, version, dek, hkey, hraw⟩ := h
    rw [readOf_ok hp hc hraw (openFile_sealFile hkey path a)]
    constructor
    · intro h
      rw [Except.ok.inj h]
    · intro h
      rw [some.inj h]

theorem HoldsAt.eq_of_readOf {u : Vault} (hp : ValidPath path)
    (h : HoldsAt v w path o) {b : Bytes} (hread : readOf u path w = .ok b) : o = some b := by
  have hc : path.1 ∈ w.containers := by
    by_contra hc
    unfold readOf at hread
    rw [hp] at hread
    simp only [Except.bind, if_neg hc] at hread
    cases hread
  unfold readOf at hread
  rw [hp] at hread
  simp only [Except.bind, if_pos hc] at hread
  cases o with
  | none =>
    have habsent : w.files.lookup path = none := h
    rw [habsent] at hread
    cases hread
  | some a =>
    obtain ⟨_, version, dek, _, hraw⟩ := h
    rw [hraw] at hread
    rw [(openFile_sealFile_ok hp hp hread).2]

-- ==== one update of the blobs

theorem HoldsAt.congr {w' : World} (h : HoldsAt v w path o)
    (hfile : w'.files.lookup path = w.files.lookup path)
    (hcont : w'.containers = w.containers) : HoldsAt v w' path o := by
  cases o with
  | none => exact hfile.trans h
  | some a =>
    obtain ⟨hc, version, dek, hkey, hraw⟩ := h
    rw [← hcont] at hc
    exact ⟨hc, version, dek, hkey, hfile.trans hraw⟩

variable {m : FileMap}

theorem Represents.insert {u : Vault}
    (plaintext : Bytes) (h : Represents v m w) (hcov : v.keys u.activeVersion = some u.activeDek)
    (hc : path.1 ∈ w.containers) : Represents v (update m path (some plaintext))
      (w.withFiles (w.files.insert path
        (sealFile u.activeVersion u.activeDek path plaintext))) := by
  intro q hq
  rw [update_apply]
  split_ifs with hqp
  · subst hqp
    exact ⟨hc, _, _, hcov, lookup_insert _⟩
  · exact (h q hq).congr (lookup_insert_ne hqp) rfl

theorem Represents.erase (path : BlobPath) (h : Represents v m w) :
    Represents v (update m path none) { w with files := w.files.erase path } := by
  intro q hq
  rw [update_apply]
  split_ifs with hqp
  · subst hqp
    exact lookup_erase _ _
  · exact (h q hq).congr (lookup_erase_ne hqp) rfl

theorem Represents.reseal {u : Vault} {plaintext : Bytes} (h : Represents v m w)
    (hcov : v.keys u.activeVersion = some u.activeDek) (hc : path.1 ∈ w.containers)
    (hm : m path = some plaintext) : Represents v m (w.withFiles (w.files.insert path
      (sealFile u.activeVersion u.activeDek path plaintext))) := by
  have hsame : update m path (some plaintext) = m := by
    rw [← hm]
    exact update_eq_self path m
  rw [← hsame]
  exact h.insert plaintext hcov hc

-- ==== one call

section OneCall

variable {F : Faults World CoreError} {v u : Vault} {m : FileMap} {w : World} {path : BlobPath}

theorem wp_deleteFile {I : World → Prop} {Q : Except CoreError Unit → World → Prop} (hi : I w)
    (hfail : ∀ e, Q (.error e) w) (habsent : w.files.lookup path = none → Q (.ok ()) w)
    (hgone : I { w with files := w.files.erase path }
      ∧ ∀ res, Q res { w with files := w.files.erase path }) : wp F I (deleteFile path) Q w := by
  refine (observes_ret _).wp_seq hi hfail fun _ _ => ?_
  refine (observes_ensureContainer _).wp_seq hi hfail fun _ _ => ?_
  refine observes_get.wp_seq hi hfail fun _ hw => ?_
  obtain rfl := Except.ok.inj hw
  by_cases hf : (w.files.lookup path).isSome
  · rw [if_pos hf, bind_eq, wp_bind, wp_modify]
    obtain ⟨hi', hq⟩ := hgone
    refine ⟨hi, ⟨hi', ?_⟩, fun e _ => hfail e⟩
    rw [seqPost_ok, wp_sync]
    exact ⟨hi', hq _, fun e _ => hq _⟩
  · rw [if_neg hf]
    exact ⟨hi, habsent (not_isSome_iff_eq_none.1 hf)⟩

theorem stable_rewrapFile_represents (path : BlobPath)
    (hcov : v.keys u.activeVersion = some u.activeDek) :
    Stable (Represents v m) (rewrapFile u path) := by
  refine stable_bind (stable_ret _) fun _ => ?_
  refine (observes_readRequired _ _).stable_bind fun F w raw hw _ => ?_
  split
  · exact ⟨hw, hw⟩
  have hrest : Stable (Represents v m) (do
      let plaintext ← readFile u path
      writeFile u path plaintext
      pure true) := by
    refine (observes_readFile u path).stable_bind fun F w b hw hb => ?_
    rw [bind_eq, wp_bind]
    refine wp_writeFile hw (fun e => hw) fun hv hc => ?_
    have hm := (hw path hv).eq_of_readOf hv hb
    have hw' := hw.reseal hcov hc hm
    refine ⟨hw', fun res => ?_⟩
    cases res with
    | ok _ => exact ⟨hw', hw'⟩
    | error e => exact hw'
  exact hrest F w hw

def MidCall (v : Vault) (m : FileMap) (call : FileCall) (w : World) : Prop :=
  Represents v m w ∨ Represents v (call.apply m) w

theorem FileCall.wp_prog {call : FileCall} (hcov : call.Covered v)
    (hw : Represents v m w) : wp F (MidCall v m call) call.prog (fun res w' => ∃ m',
      Follows m call (.returned res) m' ∧ Represents v m' w') w := by
  cases call with
  | writeFile u path plaintext =>
    refine wp_writeFile (.inl hw) (fun e => ⟨m, .inl rfl, hw⟩) ?_
    intro hv hc
    have hw' := hw.insert plaintext hcov hc
    refine ⟨.inr hw', fun res => ?_⟩
    cases res with
    | ok _ => exact ⟨_, rfl, hw'⟩
    | error e => exact ⟨_, .inr rfl, hw'⟩
  | deleteFile path =>
    have hw' := hw.erase path
    refine wp_deleteFile (.inl hw) (fun e => ⟨m, .inl rfl, hw⟩) ?_ ⟨.inr hw', fun res => ?_⟩
    · intro habsent
      refine ⟨_, rfl, fun q hq => ?_⟩
      show HoldsAt v w q (update m path none q)
      rw [update_apply]
      split_ifs with hqp
      · exact hqp ▸ habsent
      · exact hw q hq
    · cases res with
      | ok _ => exact ⟨_, rfl, hw'⟩
      | error e => exact ⟨_, .inr rfl, hw'⟩
  | rewrapFile u path =>
    have hstable := stable_bind (stable_rewrapFile_represents (m := m) path hcov)
      fun _ : Bool => stable_ret (ε := CoreError) (.ok ())
    refine wp_mono (hstable F w hw) (fun _ h => .inl h) ?_
    intro res w' hw' _
    cases res with
    | ok _ => exact ⟨m, rfl, hw'⟩
    | error e => exact ⟨m, .inl rfl, hw'⟩

end OneCall

-- ==== whole histories

section Histories

variable {F : Faults World CoreError} {v : Vault} {m : FileMap} {w : World} {path : BlobPath}

theorem Represents.crashed (hw : Represents v m w) : Represents v m w.crashed :=
  fun path hp => (hw path hp).congr rfl rfl

theorem Represents.run {w' : World} {h : List (Event World CoreError FileCall Unit)}
    (hw : Represents v m w) (hrun : fileStore.Run F (fun _ call => call.Covered v) w h w') :
    ∃ m', Traces m h m' ∧ Represents v m' w' := by
  induction hrun with
  | nil => exact ⟨m, rfl, hw⟩
  | step _ hcov hstep ih =>
    obtain ⟨m₁, htr, hm₁⟩ := ih
    have hspec := FileCall.wp_prog (F := F) hcov hm₁
    cases hstep with
    | returned hp hr =>
      obtain rfl := some.inj hp
      obtain ⟨m', hfollow, hm'⟩ := hspec.returns hr
      exact ⟨m', ⟨m₁, htr, hfollow⟩, hm'⟩
    | crashed hp hr =>
      obtain rfl := some.inj hp
      rcases hspec.reaches hr with hm' | hm'
      · exact ⟨m₁, ⟨m₁, htr, .inl rfl⟩, hm'.crashed⟩
      · exact ⟨_, ⟨m₁, htr, .inr rfl⟩, hm'.crashed⟩

theorem writeFile_run_ok (u : Vault) (plaintext : Bytes) (hp : ValidPath path)
    (hc : path.1 ∈ w.containers) : ((writeFile u path plaintext).run w).1 = .ok () := by
  have hs : Succeeds Faults.none (fun _ => True) (writeFile u path plaintext) (fun _ _ => True) w :=
    succeeds_writeFile hp hc trivial trivial trivial
  exact (hs.wp_none (Q := fun res _ => res = .ok ()) fun _ _ _ _ => rfl).run

theorem deleteFile_run_ok (hp : ValidPath path) (hc : path.1 ∈ w.containers) :
    ((deleteFile path).run w).1 = .ok () := by
  have hs : Succeeds Faults.none (fun _ => True) (deleteFile path) (fun _ _ => True) w := by
    unfold deleteFile
    rw [hp, bind_eq, bind_ret_ok, bind_eq, succeeds_bind]
    refine succeeds_ensureContainer hc trivial ?_
    exact succeeds_removeFileDurable trivial (fun _ => ⟨trivial, trivial⟩) fun _ => trivial
  exact (hs.wp_none (Q := fun res _ => res = .ok ()) fun _ _ _ _ => rfl).run

theorem rewrapFile_run_ok {u : Vault} {plaintext : Bytes} (hp : ValidPath path)
    (hkeys : u.keys = v.keys) (hw : HoldsAt v w path (some plaintext)) :
    ∃ changed, ((rewrapFile u path).run w).1 = .ok changed := by
  obtain ⟨hc, version, dek, hkey, hraw⟩ := hw
  have hread : readOf u path w = .ok plaintext :=
    readOf_ok hp hc hraw (openFile_sealFile (by rw [hkeys]; exact hkey) path plaintext)
  have hs : Succeeds Faults.none (fun _ => True) (rewrapFile u path) (fun _ _ => True) w := by
    unfold rewrapFile
    rw [hp, bind_eq, bind_ret_ok, bind_eq, succeeds_bind]
    refine (observes_readRequired _ _).succeeds trivial
      (a := sealFile version dek path plaintext) (by rw [hraw]) ?_
    split
    · exact succeeds_ret trivial trivial
    · rw [bind_eq, succeeds_bind]
      refine (observes_readFile u path).succeeds trivial hread ?_
      rw [bind_eq, succeeds_bind]
      exact succeeds_writeFile hp hc trivial trivial (succeeds_ret trivial trivial)
  have hwp := hs.wp_none (Q := fun res _ => ∃ changed, res = .ok changed)
    fun changed _ _ _ => ⟨changed, rfl⟩
  exact hwp.run

end Histories

-- ==== moved blobs

/-- What can happen to the files when someone without a key can reach
them. -/
inductive Move where
  | call (c : FileCall)
  | copy (source dest : BlobPath)
  | swap (p q : BlobPath)

def putBlob (path : BlobPath) (blob : Option RawFile)
    (files : AList fun _ : BlobPath => RawFile) : AList fun _ : BlobPath => RawFile :=
  match blob with
  | some raw => files.insert path raw
  | none => files.erase path

def Move.prog : Move → VaultM Unit
  | .call c => c.prog
  | .copy source dest => Prog.modify fun w =>
    w.withFiles (putBlob dest (w.files.lookup source) w.files)
  | .swap p q => Prog.modify fun w =>
    w.withFiles (putBlob p (w.files.lookup q) (putBlob q (w.files.lookup p) w.files))

def Move.Valid : Move → Prop
  | .call _ => True
  | .copy source dest => ValidPath source ∧ ValidPath dest
  | .swap p q => ValidPath p ∧ ValidPath q

def exposedStore : Service World CoreError Move Unit where
  prog _ move := some move.prog
  reset := World.crashed

def WrittenIn (h : List (Event World CoreError Move Unit))
    (path : BlobPath) (plaintext : Bytes) : Prop :=
  ∃ e ∈ h, ∃ v, e.call = .call (.writeFile v path plaintext)

/-- A blob that was sealed for a valid path, with bytes `S` allows
there. -/
def SealedFor (S : BlobPath → Bytes → Prop) (raw : RawFile) : Prop :=
  ∃ path version dek plaintext, ValidPath path ∧ S path plaintext
    ∧ raw = sealFile version dek path plaintext

/-- Every blob at a valid path was sealed for some valid path. -/
def Owned (S : BlobPath → Bytes → Prop) (w : World) : Prop :=
  ∀ path, ValidPath path → ∀ raw, w.files.lookup path = some raw → SealedFor S raw

section Moved

variable {S T : BlobPath → Bytes → Prop} {w : World} {path : BlobPath}

theorem Owned.mono (h : Owned S w) (hST : ∀ path b, S path b → T path b) : Owned T w := by
  intro path hp raw hraw
  obtain ⟨q, version, dek, b, hq, hS, rfl⟩ := h path hp raw hraw
  exact ⟨q, version, dek, b, hq, hST q b hS, rfl⟩

theorem Owned.putBlob (path : BlobPath) (blob : Option RawFile)
    (h : Owned S w) (hblob : ∀ raw, blob = some raw → SealedFor S raw) :
    Owned S (w.withFiles (putBlob path blob w.files)) := by
  intro q hq raw hraw
  cases blob with
  | none =>
    have hraw : (w.files.erase path).lookup q = some raw := hraw
    by_cases hqp : q = path
    · rw [hqp, lookup_erase] at hraw
      cases hraw
    · rw [lookup_erase_ne hqp] at hraw
      exact h q hq raw hraw
  | some new =>
    have hraw : (w.files.insert path new).lookup q = some raw := hraw
    by_cases hqp : q = path
    · rw [hqp, lookup_insert] at hraw
      exact hblob raw hraw
    · rw [lookup_insert_ne hqp] at hraw
      exact h q hq raw hraw

theorem Owned.readOf {u : Vault}
    {b : Bytes} (h : Owned S w) (hread : Storage.readOf u path w = .ok b) : S path b := by
  unfold Storage.readOf at hread
  cases hp : validatePath path with
  | error e =>
    rw [hp] at hread
    cases hread
  | ok _ =>
    rw [hp] at hread
    simp only [Except.bind] at hread
    split at hread
    · cases hraw : w.files.lookup path with
      | none =>
        rw [hraw] at hread
        cases hread
      | some raw =>
        rw [hraw] at hread
        obtain ⟨q, version, dek, a, hq, hS, rfl⟩ := h path hp raw hraw
        obtain ⟨rfl, rfl⟩ := openFile_sealFile_ok hp hq hread
        exact hS
    · cases hread

theorem stable_writeFile_owned (u : Vault) {b : Bytes} (hS : S path b) :
    Stable (Owned S) (writeFile u path b) := by
  intro F w hw
  refine wp_writeFile hw (fun _ => hw) fun hp _ => ?_
  have hw' : Owned S (w.withFiles (w.files.insert path
      (sealFile u.activeVersion u.activeDek path b))) := by
    refine Owned.putBlob path (some _) hw fun raw hraw => ?_
    obtain rfl := some.inj hraw
    exact ⟨path, _, _, b, hp, hS, rfl⟩
  exact ⟨hw', fun _ => hw'⟩

theorem stable_call_owned {call : FileCall}
    (hS : ∀ v path b, call = .writeFile v path b → S path b) : Stable (Owned S) call.prog := by
  cases call with
  | writeFile u path b => exact stable_writeFile_owned u (hS u path b rfl)
  | deleteFile path =>
    intro F w hw
    have hw' : Owned S { w with files := w.files.erase path } := Owned.putBlob path none hw nofun
    exact wp_deleteFile hw (fun _ => hw) (fun _ => hw) ⟨hw', fun _ => hw'⟩
  | rewrapFile u path =>
    refine stable_bind ?_ fun _ => stable_ret _
    refine stable_bind (stable_ret _) fun _ => ?_
    refine stable_bind (observes_readRequired _ _).stable fun raw => ?_
    split
    · exact stable_ret _
    · refine (observes_readFile u path).stable_bind fun F w b hw hread => ?_
      exact stable_bind (stable_writeFile_owned u (hw.readOf hread)) (fun _ => stable_ret _) F w hw

theorem stable_move_owned {move : Move} (hvalid : move.Valid)
    (hS : ∀ v path b, move = .call (.writeFile v path b) → S path b) :
    Stable (Owned S) move.prog := by
  cases move with
  | call call =>
    refine stable_call_owned fun v path b h => hS v path b ?_
    rw [h]
  | copy source dest =>
    refine stable_modify fun w hw => Owned.putBlob _ _ hw fun raw hraw => ?_
    exact hw source hvalid.1 raw hraw
  | swap p q =>
    refine stable_modify fun w hw => ?_
    have hfirst := Owned.putBlob q (w.files.lookup p) hw fun raw hraw => hw p hvalid.1 raw hraw
    exact Owned.putBlob _ _ hfirst fun raw hraw => hw q hvalid.2 raw hraw

theorem Owned.run {F : Faults World CoreError} {w' : World}
    {h : List (Event World CoreError Move Unit)} (hw : Owned S w)
    (hrun : exposedStore.Run F (fun _ move => move.Valid) w h w') :
    Owned (fun path b => S path b ∨ WrittenIn h path b) w' := by
  induction hrun with
  | nil => exact hw.mono fun _ _ hS => .inl hS
  | @step h e _ hvalid hstep ih =>
    have hbefore : Owned (fun path b => S path b ∨ WrittenIn (e :: h) path b) e.before := by
      refine ih.mono fun path b hb => ?_
      rcases hb with hb | ⟨e', he', hwrite⟩
      · exact .inl hb
      · exact .inr ⟨e', List.mem_cons_of_mem _ he', hwrite⟩
    have hstable := stable_move_owned (S := fun path b => S path b ∨ WrittenIn (e :: h) path b)
      hvalid fun v path b hcall => .inr ⟨e, List.mem_cons_self, v, hcall⟩
    obtain ⟨p, s', hp, hr, hafter⟩ := hstep.reaches
    obtain rfl := some.inj hp
    have hs' := hstable.reaches hbefore hr
    rcases hafter with heq | heq
    · rw [heq]
      exact hs'
    · rw [heq]
      exact hs'

theorem Represents.owned {v : Vault} {m : FileMap}
    (h : Represents v m w) : Owned (fun path b => m path = some b) w := by
  intro path hp raw hraw
  have hat := h path hp
  cases hm : m path with
  | none =>
    rw [hm] at hat
    rw [show w.files.lookup path = none from hat] at hraw
    cases hraw
  | some b =>
    rw [hm] at hat
    obtain ⟨_, version, dek, _, hfile⟩ := hat
    rw [hfile] at hraw
    exact ⟨path, version, dek, b, hp, hm, (some.inj hraw).symm⟩

end Moved

-- ==== the refinement

/-- The encrypted files refine a map. Along every run, `read_file` is the
lookup in a map the history leads to, in which a rewrap is no update; the
calls go through when nothing fails; and with blobs copied and swapped,
what is read at a path was there or has been written to it. -/
theorem fileStore_refines_map (F : Faults World CoreError) (v : Vault) (m₀ : FileMap) (w : World)
    (hw : Represents v m₀ w) : (∀ h w', fileStore.Run F (fun _ call => call.Covered v) w h w' →
      ∃ m, Traces m₀ h m ∧ (∀ path, ValidPath path → ∃ res, (readFile v path).run w' = (res, w')
            ∧ ∀ b, res = .ok b ↔ m path = some b)
        ∧ ∀ path, ValidPath path → path.1 ∈ w'.containers →
          (∀ u b, ((writeFile u path b).run w').1 = .ok ()) ∧ ((deleteFile path).run w').1 = .ok ()
            ∧ ∀ u, u.keys = v.keys → (m path).isSome → ∃ changed,
              ((rewrapFile u path).run w').1 = .ok changed)
    ∧ ∀ h w', exposedStore.Run F (fun _ move => move.Valid) w h w' →
      ∀ u path b w'', (readFile u path).run w' = (.ok b, w'') →
        m₀ path = some b ∨ WrittenIn h path b := by
  constructor
  · intro h w' hrun
    obtain ⟨m, htr, hm⟩ := hw.run hrun
    refine ⟨m, htr, fun path hp => ?_, fun path hp hc => ?_⟩
    · exact ⟨_, (observes_readFile v path).run w', (hm path hp).readOf_ok_iff hp⟩
    refine ⟨fun u b => writeFile_run_ok u b hp hc,
      deleteFile_run_ok hp hc, fun u hkeys hsome => ?_⟩
    obtain ⟨b, hb⟩ := isSome_iff_exists.1 hsome
    have hat := hm path hp
    rw [hb] at hat
    exact rewrapFile_run_ok hp hkeys hat
  · intro h w' hrun u path b w'' hread
    rw [(observes_readFile u path).run w'] at hread
    exact (hw.owned.run hrun).readOf (Prod.mk.inj hread).1

namespace Sample

def root : World := { World.empty with containers := ["notes"] }

def rotated : Vault where
  keys := fun version =>
    if version = 1 then some (.generate 0)
    else if version = 2 then some (.generate 1) else none
  activeVersion := 2
  manifestAuthKey := .generate 2
  active_mem := rfl

def original : Vault where
  keys := fun version => if version = 1 then some (.generate 0) else none
  activeVersion := 1
  manifestAuthKey := .generate 2
  active_mem := rfl

def noteCall : FileCall := .writeFile original ("notes", "a.txt") [1, 2]

def rewrapCall : FileCall := .rewrapFile rotated ("notes", "a.txt")

def stored : World := (rewrapCall.prog.run (noteCall.prog.run root).2).2

def noteHistory : List (Event World CoreError FileCall Unit) :=
  [⟨(noteCall.prog.run root).2, rewrapCall, .returned (.ok ()), stored⟩,
    ⟨root, noteCall, .returned (.ok ()), (noteCall.prog.run root).2⟩]

end Sample

open Sample

/-- A note written through the handle of the first key version and
rewrapped through the handle of the second reads back. -/
theorem fileStore_refines_map_note :
    ((readFile rotated ("notes", "a.txt")).run stored).1 = .ok [1, 2]
      ∧ ∃ m, Traces (fun _ => none) noteHistory m
        ∧ m ("notes", "a.txt") = some [1, 2] := by
  have hroot : Represents rotated (fun _ => none) root := fun _ _ => rfl
  have hrun : fileStore.Run Faults.none
      (fun _ call => call.Covered rotated) root noteHistory stored := by
    refine .step (e := ⟨_, _, _, _⟩) (.step (e := ⟨_, _, _, _⟩) .nil rfl ?_)
      rfl ?_
    · exact .returned rfl (run_returns _ noteCall.prog root)
    · exact .returned rfl (run_returns _ rewrapCall.prog _)
  obtain ⟨m, htr, hread, _⟩ := (fileStore_refines_map Faults.none rotated _ root hroot).1 _ _ hrun
  obtain ⟨res, hres, hval⟩ := hread ("notes", "a.txt") rfl
  have hok : ((readFile rotated ("notes", "a.txt")).run stored).1
      = .ok [1, 2] := rfl
  refine ⟨hok, m, htr, (hval [1, 2]).1 ?_⟩
  rw [hres] at hok
  exact hok

end Storage

end SovereignVault
