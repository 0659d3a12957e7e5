/-
What `vault_read_file` and `vault_export_file` release, in every run.

A read rests on what the command's lookup of the mode was told: DIRECT,
another mode and a pass for exactly this operation, or nothing. A failed
lookup is told as no mode, and no mode asks for no consent. The read that
follows never looks at the manifest.

So a release is consented to as long as the steps are `Steady`: a lookup
fails only where the file cannot be read, and nothing changes under a
command what its lookup told.
-/
import SovereignVault.Desktop.Lawful
import SovereignVault.Desktop.Play

namespace SovereignVault.Desk

open Dialogue Talk Audit Presence Storage

-- ==== the condition

def Barred (w : World) (cmd : Command) : Prop :=
  ∀ handle, w.handle = some handle → ∀ bytes,
    readOf handle.vault (cmd.container, cmd.fileName) w ≠ .ok bytes

/-- What the lookup of a command told is still so. A mode that asks for a
pass needs nothing more. -/
def Holds (w : World) (cmd : Command) : Option SecurityMode → Prop
  | none => Barred w cmd
  | some .direct => w.handle.isSome = true → modeNow w cmd.container = some .direct
  | some _ => True

structure Steady (x : DeskEntry) : Prop where
  /-- A lookup fails only where the file cannot be read. -/
  failed : ∀ tid container error t cmd,
    x.event = .exchange tid ⟨.slot (.containerMode container), .error error⟩ →
    x.before.threads tid = some t → t.call = .release cmd → Barred x.before.shared.slot.world cmd
  /-- Nothing changes under a command what its lookup told. -/
  kept : ∀ tid t cmd mode, x.before.threads tid = some t → t.call = .release cmd → lookup t.said =
    some mode → Holds x.before.shared.slot.world cmd mode → Holds x.after.shared.slot.world cmd mode

section

variable {estr : CoreError → String} {c c' : DeskConfig}
  {h : List DeskEntry} {d d' : Shared} {tid : Nat}

variable {cmd : Command} {bytes : Bytes} {y x : DeskEntry}

theorem holds_of_told {e : DeskExchange} {mode : Option SecurityMode}
    (hans : Answers estr d tid e d')
    (hcontainer : ∀ container, e.op = .slot (.containerMode container) →
      container = cmd.container) (hfailed : ∀ container error,
      e = ⟨.slot (.containerMode container), .error error⟩ →
      Barred d.slot.world cmd) (htold : told e = some mode) : Holds d'.slot.world cmd mode := by
  obtain ⟨o, a⟩ := e
  obtain ⟨hi, -, hans⟩ := hans
  cases o with
  | slot o =>
    cases o with
    | lockHandle =>
      cases a with
      | true => cases htold
      | false =>
        cases htold
        obtain ⟨s, ⟨-, hlocked, rfl⟩, rfl⟩ := hans
        intro handle hhandle
        rw [hhandle] at hlocked
        cases hlocked
    | containerMode container =>
      obtain rfl := hcontainer container rfl
      obtain ⟨s, ⟨-, rfl, handle, hhandle, hlooks⟩, rfl⟩ := hans
      cases a with
      | error e =>
        cases htold
        exact hfailed _ e rfl
      | ok m =>
        cases htold
        have hmode := hlooks.modeNow hhandle
        cases m with
        | direct => exact fun _ => hmode
        | _ => trivial
    | _ => cases htold
  | _ => cases htold

theorem Run.lookup_holds (hrun : (desktop estr).Run Steady c h c')
    (hthreads : ∀ tid, c.threads tid = none) :
    ∀ tid t cmd mode, c'.threads tid = some t → t.call = .release cmd → lookup t.said = some mode →
      Holds c'.shared.slot.world cmd mode := by
  induction hrun with
  | nil =>
    intro tid t cmd mode ht
    rw [hthreads] at ht
    cases ht
  | @step h x hr hsteady hs ih =>
    intro tid t cmd mode ht hcall hlookup
    have hkept : ∀ t₀, x.before.threads tid = some t₀ → t₀.call
        = .release cmd → lookup t₀.said = some mode → Holds x.after.shared.slot.world cmd mode :=
      fun t₀ ht₀ hcall₀ hlookup₀ =>
        hsteady.kept tid t₀ cmd mode ht₀ hcall₀ hlookup₀ (ih tid t₀ cmd mode ht₀ hcall₀ hlookup₀)
    rcases hs.thread_cases ht with ⟨hbefore, -⟩ | ⟨call, p, -, rfl, -⟩
        | ⟨e, t₀, hevent, ht₀, hhears, hans⟩
    · exact hkept t hbefore hcall hlookup
    · cases hlookup
    have hcall₀ : t₀.call = .release cmd := hhears.call ▸ hcall
    rw [hhears.said] at hlookup
    unfold lookup at hlookup
    split at hlookup
    · next mode' hbefore =>
      rw [Option.some.inj hlookup] at hbefore
      exact hkept t₀ ht₀ hcall₀ hbefore
    refine holds_of_told hans ?_ ?_ hlookup
    · intro container hop
      obtain ⟨t₁, -, ht₁, -, -, -, hlawful⟩ := Run.lawful hr hthreads hs hevent
      cases ht₀.symm.trans ht₁
      rw [hop] at hlawful
      obtain ⟨cmd', hcmd', rfl⟩ := hlawful
      cases hcall₀.symm.trans hcmd'
      rfl
    · rintro container error rfl
      exact hsteady.failed tid container error t₀ cmd hevent ht₀ hcall₀

-- ==== the release

/-- The step releases the bytes: the command returns them, or writes them
to their destination. -/
def Releases (y : DeskEntry) (tid : Nat) (cmd : Command) (bytes : Bytes) : Prop :=
  ∃ t, y.before.threads tid = some t ∧ t.call = .release cmd
    ∧ (y.event = .finish tid ∧ t.talk = .ret (.ok (.bytes bytes))
      ∨ ∃ destination a, y.event = .exchange tid ⟨.outside (.writeExport destination bytes), a⟩)

/-- The step reads the bytes for the command: its container is DIRECT now,
or a pass for this very operation is consumed. -/
def ReadByConsent (x : DeskEntry) (tid : Nat) (cmd : Command) (bytes : Bytes) : Prop :=
  x.event = .exchange tid ⟨.slot (.readFile cmd.container cmd.fileName), .ok bytes⟩
  ∧ ∃ t mode, x.before.threads tid = some t ∧ t.call = .release cmd
    ∧ lookup t.said = some (some mode)
    ∧ (modeNow x.before.shared.slot.world cmd.container = some .direct
      ∨ InClosure (cmd.op (some mode)) t.said)

theorem Releases.wasRead
    {allowed : DeskEntry → Prop} (hrun : (desktop estr).Run allowed c h y.before)
    (hthreads : ∀ tid, c.threads tid = none) (hs : (desktop estr).Step y)
    (hrel : Releases y tid cmd bytes) : ∃ t, y.before.threads tid = some t ∧ t.call = .release cmd
      ∧ WasRead cmd bytes t.said := by
  obtain ⟨t, ht, hcall, hrel⟩ := hrel
  refine ⟨t, ht, hcall, ?_⟩
  rcases hrel with ⟨-, hret⟩ | ⟨destination, a, hevent⟩
  · exact (Run.ended hrun hthreads ht hret).returned cmd hcall bytes rfl
  obtain ⟨t', -, ht', -, -, -, hlawful⟩ := Run.lawful hrun hthreads hs hevent
  cases ht.symm.trans ht'
  obtain ⟨cmd', hcmd', -, hread⟩ := hlawful
  cases hcall.symm.trans hcmd'
  exact hread

theorem readByConsent (hrun : (desktop estr).Run Steady c h x.before)
    (hthreads : ∀ tid, c.threads tid = none) (hs : (desktop estr).Step x)
    (hevent : x.event = .exchange tid ⟨.slot (.readFile cmd.container cmd.fileName), .ok bytes⟩)
    {t : Thread deskInterface String Reply Call} (ht : x.before.threads tid = some t)
    (hcall : t.call = .release cmd) : ReadByConsent x tid cmd bytes := by
  obtain ⟨t', -, ht', -, -, hans, hlawful⟩ := Run.lawful hrun hthreads hs hevent
  cases ht.symm.trans ht'
  obtain ⟨cmd', hcmd', -, -, mode, hlookup, hmode⟩ := hlawful
  cases hcall.symm.trans hcmd'
  have hholds := Run.lookup_holds hrun hthreads tid t cmd mode ht hcall hlookup
  obtain ⟨hi, -, s, ⟨-, -, handle, hhandle, r, w', hreturns, hr⟩, -⟩ := hans
  -- the file can be read, so the lookup was told a mode
  have hread := (observes_readFile handle.vault _).returns ((mapError_eq_ok hr.symm) ▸ hreturns)
  cases mode with
  | none => exact absurd hread.2 (hholds handle hhandle bytes)
  | some mode =>
    refine ⟨hevent, t, mode, ht, hcall, hlookup, ?_⟩
    rcases hmode with hnone | hdirect | hclosure
    · cases hnone
    · cases hdirect
      exact .inl (hholds (by rw [hhandle]; rfl))
    · exact .inr hclosure

/-- In a run of steady steps nothing is released without the container's
consent. -/
theorem release_consented {y : DeskEntry} {later earlier : List DeskEntry}
    (hfresh : Fresh c) (hrun : (desktop estr).Run Steady c (later ++ y :: earlier) c')
    {cmd : Command} {bytes : Bytes} (hrel : Releases y tid cmd bytes) :
    ∃ mid x before, earlier = mid ++ x :: before ∧ ReadByConsent x tid cmd bytes
      ∧ ∀ e ∈ mid, ∀ call, e.event ≠ .call tid call := by
  obtain ⟨hr, -, hs⟩ := hrun.split
  obtain ⟨t, ht, hcall, hread⟩ := hrel.wasRead hr hfresh.threads hs
  obtain ⟨since, before, hsaid⟩ := List.append_of_mem hread
  obtain ⟨mid, x, before, t₀, rfl, hevent, ht₀, -, hcall₀, hcalls⟩ :=
    hr.said_entry (hfresh.threads tid) ht hsaid
  obtain ⟨hrx, -, hsx⟩ := hr.split
  exact ⟨mid, x, before, rfl, readByConsent hrx hfresh.threads hsx hevent
    ht₀ (hcall₀.trans hcall), hcalls⟩

def released (y : DeskEntry) (tid : Nat) : Option (Command × Bytes) :=
  match y.before.threads tid with
  | none => none
  | some t =>
    match t.call, y.event, t.talk with
    | .release cmd, .finish i, .ret (.ok (.bytes bytes)) =>
      if i = tid then some (cmd, bytes) else none
    | .release cmd, .exchange i ⟨.outside (.writeExport _ bytes), _⟩, _ =>
      if i = tid then some (cmd, bytes) else none
    | _, _, _ => none

theorem releases_of_released (h : released y tid = some (cmd, bytes)) :
    Releases y tid cmd bytes := by
  unfold released at h
  split at h
  · cases h
  next t ht =>
  split at h
  · next cmd' i bytes' hcall hevent htalk =>
    split at h
    · next htid =>
      cases h
      subst htid
      exact ⟨t, ht, hcall, .inl ⟨hevent, htalk⟩⟩
    · cases h
  · next cmd' i destination bytes' a hcall hevent =>
    split at h
    · next htid =>
      cases h
      subst htid
      exact ⟨t, ht, hcall, .inr ⟨destination, a, hevent⟩⟩
    · cases h
  · cases h

def quiet : Happening deskInterface Call Move → Bool
  | .exchange _ ⟨.slot (.publish _), _⟩ => false
  | .exchange _ ⟨.slot (.perform _), _⟩ => false
  | .exchange _ ⟨.slot (.containerMode _), .error _⟩ => false
  | .move (.files _) => false
  | _ => true

theorem steady_of_quiet (hs : (desktop estr).Step x)
    (hquiet : quiet x.event = true) : Steady x := by
  have hworld : x.after.shared.slot.world = x.before.shared.slot.world := by
    rcases step_cases hs with ⟨tid, e, hevent, hans⟩
        | ⟨m, hevent, hmoves⟩ | ⟨-, heq⟩
    · rcases hans.slot_cases with ⟨o, a, rfl, hslot⟩ | ⟨-, heq⟩
      · rw [hevent] at hquiet
        cases o with
        | publish _ | perform _ => cases hquiet
        | lockHandle => rw [hslot.2.2]
        | containerMode _ | readFile _ _ => rw [hslot.2.1]
        | tryRecord _ => exact congrArg Slot.world hslot
        | _ => rw [hslot.2]
      · rw [heq]
    · rw [hevent] at hquiet
      cases m with
      | files w => cases hquiet
      | _ => exact congrArg (fun d => d.slot.world) hmoves
    · rw [heq]
  refine ⟨?_, ?_⟩
  · intro tid container error t cmd hevent
    rw [hevent] at hquiet
    cases hquiet
  · intro tid t cmd mode _ _ _ hholds
    rw [hworld]
    exact hholds

end

namespace Sample

def readCard : Command := .readFile "notes" "card.txt" none none

def clickActs : List (Act Call Move) :=
  [.call 0 (.release readCard)] ++ answers 0 10
    ++ [.call 1 (.respond 1 true none)] ++ answers 1 6 ++ [.finish 1] ++ answers 0 10 ++ [.finish 0]

def clickRun : List DeskEntry × DeskConfig :=
  plainPlayer.play (launch (root .anonymized)) clickActs

theorem clickRun_steady : (desktop estr).Run Steady
    (launch (root .anonymized)) clickRun.1 clickRun.2 :=
  plainPlayer.play_tested (fun _ => steady_of_quiet) (by decide +kernel)

end Sample

open Sample

theorem release_consented_click : ∃ later y earlier, clickRun.1 = later ++ y :: earlier
    ∧ Releases y 0 readCard email
    ∧ ∃ mid x before, earlier = mid ++ x :: before ∧ ReadByConsent x 0 readCard email
      ∧ ∀ e ∈ mid, ∀ call, e.event ≠ .call 0 call := by
  have hany : clickRun.1.any (fun y =>
      released y 0 = some (readCard, email)) = true := by
    decide +kernel
  obtain ⟨y, hmem, hy⟩ := List.any_eq_true.1 hany
  obtain ⟨later, earlier, heq⟩ := List.append_of_mem hmem
  have hrel := releases_of_released (of_decide_eq_true hy)
  have hrun := clickRun_steady
  rw [heq] at hrun
  exact ⟨later, y, earlier, heq, hrel, release_consented (launch_fresh _) hrun hrel⟩

namespace Sample

def forgedRoot : World :=
  { root .anonymized with
    manifest := (root .anonymized).manifest.map fun m =>
      Storage.authenticated (.generate 9) m.body }

def forgedActs : List (Act Call Move) :=
  [.call 0 (.release readCard)] ++ answers 0 10 ++ [.finish 0]

def forgedRun : List DeskEntry × DeskConfig :=
  plainPlayer.play (launch forgedRoot) forgedActs

theorem forgedRun_run : (desktop estr).Run (fun _ => True)
    (launch forgedRoot) forgedRun.1 forgedRun.2 :=
  plainPlayer.play_run

def ungated (x : DeskEntry) : Bool :=
  (modeNow x.before.shared.slot.world "notes").isNone && match x.event with
      | .exchange _ ⟨.slot (.closure _ _), _⟩ => false
      | _ => true

theorem not_closure_of_ungated {x : DeskEntry} (h : ungated x = true) :
    modeNow x.before.shared.slot.world "notes" = none
    ∧ ∀ tid digest n u, x.event ≠ .exchange tid ⟨.slot (.closure digest n), u⟩ := by
  obtain ⟨hmode, hevent⟩ := Bool.and_eq_true_iff.1 h
  refine ⟨Option.isNone_iff_eq_none.1 hmode, fun tid digest n u heq => ?_⟩
  rw [heq] at hevent
  cases hevent

end Sample

/-- The file of an ANONYMIZED container leaves the vault unmasked and
without a gate, once the manifest does not verify. -/
theorem release_without_consent : modeNow (root .anonymized) "notes" = some .anonymized
    ∧ ∃ later y earlier,
        (desktop estr).Run (fun _ => True) (launch forgedRoot) (later ++ y :: earlier) forgedRun.2
      ∧ Releases y 0 readCard email
      ∧ ∀ x ∈ earlier, modeNow x.before.shared.slot.world "notes" = none
        ∧ ∀ tid digest n u, x.event ≠ .exchange tid ⟨.slot (.closure digest n), u⟩ := by
  have hany : forgedRun.1.any (fun y =>
      released y 0 = some (readCard, email)) = true := by
    decide +kernel
  have hungated : forgedRun.1.all ungated = true := by decide +kernel
  obtain ⟨y, hmem, hy⟩ := List.any_eq_true.1 hany
  obtain ⟨later, earlier, heq⟩ := List.append_of_mem hmem
  refine ⟨by decide +kernel, later, y, earlier, ?_,
    releases_of_released (of_decide_eq_true hy), fun x hx => ?_⟩
  · rw [← heq]
    exact forgedRun_run
  · refine not_closure_of_ungated (List.all_eq_true.1 hungated x ?_)
    rw [heq]
    exact List.mem_append_right _ (List.mem_cons_of_mem _ hx)

end SovereignVault.Desk
