import WindowsErg.DesktopText

/-! `TrayIcon` of `src/desktop/tray.rs` against a shell that may restart or refuse a call at any
time. -/

namespace WindowsErg.Desktop
open TextScan
variable {ι : Type}

structure ShellIcon (ι : Type) where
  icon : ι
  tip : List UInt16
  deriving DecidableEq

/-- What the shell holds for the icon, whether it has restarted since it took it, and whether an
add since its last restart found the icon in place. -/
structure Shell (ι : Type) where
  held : Option (ShellIcon ι)
  restarted : Bool
  addMetIcon : Bool
  deriving DecidableEq

inductive NotifyMessage (ι : Type) where
  | add (icon : ShellIcon ι)
  | modifyTip (tip : List UInt16)
  | modifyIcon (icon : ι)
  | delete
  | setVersion

/-- Whether the shell restarts before a call arrives, and whether it refuses the call. -/
structure Answer where
  restarts : Bool
  refuses : Bool

namespace Shell

def restart : Shell ι := ⟨none, true, false⟩

def receive (shell : Shell ι) : NotifyMessage ι → Bool × Shell ι
  | .add icon =>
    match shell.held with
    | none => (true, { shell with held := some icon, restarted := false })
    | some _ => (false, { shell with addMetIcon := true })
  | .modifyTip tip => (shell.held.isSome, { shell with held := shell.held.map ({ · with tip }) })
  | .modifyIcon icon => (shell.held.isSome, { shell with held := shell.held.map ({ · with icon }) })
  | .delete => (shell.held.isSome, { shell with held := none })
  | .setVersion => (shell.held.isSome, shell)

def notify (shell : Shell ι) (message : NotifyMessage ι) (answer : Answer) : Bool × Shell ι :=
  let shell := if answer.restarts then restart else shell
  let result := shell.receive message
  if answer.refuses && result.1 then (false, shell) else result

end Shell

structure TrayIcon (ι : Type) where
  iconAdded : Bool
  callbackMessage : Option UInt32
  hicon : ι
  tooltip : Text

structure Desk (ι : Type) where
  tray : TrayIcon ι
  shell : Shell ι
  noted : ι × Text

def tipOf (tooltip : Text) : List UInt16 := fixedText 128 tooltip

namespace Desk
variable (desk : Desk ι)

def updateTooltip (tooltip : Text) (answer : Answer) : Bool × Desk ι :=
  let (ok, shell) := desk.shell.notify (.modifyTip (tipOf tooltip)) answer
  (ok, { desk with shell, tray := if ok then { desk.tray with tooltip } else desk.tray })

def setIconResource (loaded : Option ι) (answer : Answer) : Bool × Desk ι :=
  match loaded with
  | none => (false, desk)
  | some hicon =>
    let (ok, shell) := desk.shell.notify (.modifyIcon hicon) answer
    (ok, { desk with shell, tray := if ok then { desk.tray with hicon } else desk.tray })

def addIcon (tooltip : Text) (added versioned : Answer) : Bool × Desk ι :=
  let (ok, shell) := desk.shell.notify (.add ⟨desk.tray.hicon, tipOf tooltip⟩) added
  if ok then
    let tray := { desk.tray with iconAdded := true, tooltip }
    if desk.tray.callbackMessage.isSome then
      let (ok, shell) := shell.notify .setVersion versioned
      (ok, { desk with tray, shell })
    else (true, { desk with tray, shell })
  else (false, { desk with shell })

def reAdd (added versioned : Answer) : Bool × Desk ι :=
  addIcon { desk with tray.iconAdded := false } desk.tray.tooltip added versioned

def remove (answer : Answer) : Bool × Desk ι :=
  if desk.tray.iconAdded then
    let (ok, shell) := desk.shell.notify .delete answer
    (ok, { desk with shell, tray.iconAdded := !ok })
  else (true, desk)

/-- Dropping the icon calls `remove` and ignores its result. -/
def dropped (answer : Answer) : Desk ι := (desk.remove answer).2

def DeleteFails (answer : Answer) : Prop :=
  desk.tray.iconAdded = true ∧ (desk.shell.notify .delete answer).1 = false

end Desk

inductive TrayEvent (ι : Type) where
  | restart
  | updateTooltip (tooltip : Text) (answer : Answer)
  | setIconResource (loaded : Option ι) (answer : Answer)
  | reAdd (added versioned : Answer)
  | remove (answer : Answer)

namespace TrayEvent

def note (noted : ι × Text) : TrayEvent ι → Bool → ι × Text
  | .updateTooltip tooltip _, true => (noted.1, tooltip)
  | .setIconResource (some hicon) _, true => (hicon, noted.2)
  | _, _ => noted

def apply (desk : Desk ι) : TrayEvent ι → Bool × Desk ι
  | .restart => (true, { desk with shell := .restart })
  | .updateTooltip tooltip answer => desk.updateTooltip tooltip answer
  | .setIconResource loaded answer => desk.setIconResource loaded answer
  | .reAdd added versioned => desk.reAdd added versioned
  | .remove answer => desk.remove answer

end TrayEvent

namespace Desk

def step (desk : Desk ι) (event : TrayEvent ι) : Desk ι :=
  let (ok, after) := event.apply desk
  { after with noted := event.note desk.noted ok }

def run (desk : Desk ι) (events : List (TrayEvent ι)) : Desk ι := events.foldl step desk

end Desk

/-- What the builder holds, what the shell has for the window and id by then, the answers to the
first add, and what happens later. -/
structure TrayLife (ι : Type) where
  hicon : ι
  callbackMessage : Option UInt32
  tooltip : Text
  held : Option (ShellIcon ι)
  added : Answer
  versioned : Answer
  events : List (TrayEvent ι)

namespace TrayLife

def create (life : TrayLife ι) : Bool × Desk ι :=
  Desk.addIcon ⟨⟨false, life.callbackMessage, life.hicon, []⟩, ⟨life.held, true, false⟩,
    (life.hicon, life.tooltip)⟩ life.tooltip life.added life.versioned

/-- The desk when the icon is dropped: a `create` that fails drops it at once. -/
def atEnd (life : TrayLife ι) : Desk ι :=
  if life.create.1 then life.create.2.run life.events else life.create.2

end TrayLife

namespace Desk

structure Owned (desk : Desk ι) : Prop where
  flagged : desk.shell.held.isSome → desk.tray.iconAdded = true ∨ desk.shell.addMetIcon = true
  met : desk.shell.addMetIcon = true → desk.tray.iconAdded = false ∧ desk.shell.held.isSome

structure Shows (desk : Desk ι) : Prop where
  noted : (desk.tray.hicon, desk.tray.tooltip) = desk.noted
  shown : desk.tray.iconAdded = true → desk.shell.restarted = false →
    desk.shell.held = some ⟨desk.tray.hicon, tipOf desk.tray.tooltip⟩

theorem owned_addIcon {desk : Desk ι} (hflag : desk.tray.iconAdded = false)
    (hmet : desk.shell.addMetIcon = true → desk.shell.held.isSome) (tooltip : Text)
    (added versioned : Answer) : (desk.addIcon tooltip added versioned).2.Owned := by
  -- the add leaves the flag up, or the icon unadded, or the icon met
  constructor <;>
  · unfold addIcon Shell.notify Shell.receive
    grind [Shell.restart]

theorem Owned.step {desk : Desk ι} (h : desk.Owned) (event : TrayEvent ι) :
    (desk.step event).Owned := by
  obtain ⟨hflag, hmet⟩ := h
  cases event with
  | restart => exact ⟨nofun, nofun⟩
  | reAdd added versioned =>
    have hadd := @owned_addIcon ι { desk with tray.iconAdded := false } rfl
      (fun h => (hmet h).2) desk.tray.tooltip added versioned
    exact ⟨hadd.flagged, hadd.met⟩
  | setIconResource loaded answer =>
    cases loaded with
    | none => exact ⟨hflag, hmet⟩
    | some hicon =>
      constructor <;>
      · unfold Desk.step TrayEvent.apply setIconResource Shell.notify Shell.receive
        grind [Shell.restart]
  | updateTooltip | remove =>
    constructor <;>
    · unfold Desk.step TrayEvent.apply
      grind [updateTooltip, remove, Shell.notify, Shell.receive, Shell.restart]

theorem noted_addIcon (desk : Desk ι) (tooltip : Text) (added versioned : Answer) :
    (desk.addIcon tooltip added versioned).2.noted = desk.noted := by
  unfold addIcon
  grind

theorem shows_addIcon {desk : Desk ι} {tooltip : Text} (hflag : desk.tray.iconAdded = false)
    (hnoted : (desk.tray.hicon, tooltip) = desk.noted) (added versioned : Answer)
    (hkept : (desk.addIcon tooltip added versioned).1 = true ∨ desk.tray.tooltip = tooltip) :
    (desk.addIcon tooltip added versioned).2.Shows := by
  constructor <;>
  · unfold addIcon Shell.notify Shell.receive at *
    grind [Shell.restart]

theorem Shows.step {desk : Desk ι} (h : desk.Shows) (event : TrayEvent ι) :
    (desk.step event).Shows := by
  obtain ⟨hnoted, hshown⟩ := h
  cases event with
  | restart => exact ⟨hnoted, nofun⟩
  | reAdd added versioned =>
    have hadd := @shows_addIcon ι { desk with tray.iconAdded := false } _ rfl hnoted added
      versioned (.inr rfl)
    exact ⟨hadd.noted.trans (noted_addIcon _ _ _ _), hadd.shown⟩
  | setIconResource loaded answer =>
    cases loaded with
    | none => exact ⟨hnoted, hshown⟩
    | some hicon =>
      constructor <;>
      · unfold Desk.step TrayEvent.apply setIconResource Shell.notify Shell.receive
        grind [Shell.restart, TrayEvent.note]
  | updateTooltip | remove =>
    constructor <;>
    · unfold Desk.step TrayEvent.apply
      grind [updateTooltip, remove, Shell.notify, Shell.receive, Shell.restart, TrayEvent.note]

theorem owned_run {desk : Desk ι} (h : desk.Owned) (events : List (TrayEvent ι)) :
    (desk.run events).Owned := by
  induction events generalizing desk with
  | nil => exact h
  | cons event events ih => exact ih (h.step event)

theorem shows_run {desk : Desk ι} (h : desk.Shows) (events : List (TrayEvent ι)) :
    (desk.run events).Shows := by
  induction events generalizing desk with
  | nil => exact h
  | cons event events ih => exact ih (h.step event)

theorem Owned.held_dropped_iff {desk : Desk ι} (h : desk.Owned) (answer : Answer) :
    (desk.dropped answer).shell.held = none ∨ desk.DeleteFails answer ↔
      desk.shell.addMetIcon = false := by
  cases hflag : desk.tray.iconAdded with
  | false =>
    -- nothing is deleted, so what the shell holds is what an add has met
    have hdropped : desk.dropped answer = desk := by
      unfold dropped remove
      rw [hflag]
      rfl
    have hheld := h.flagged
    have hmet := h.met
    rw [hdropped, DeleteFails]
    cases hshell : desk.shell.held <;> grind
  | true =>
    have hmet : desk.shell.addMetIcon = false := by
      by_contra hmet
      have hdown := (h.met (eq_true_of_ne_false hmet)).1
      exact nomatch hflag.symm.trans hdown
    refine iff_of_true ?_ hmet
    unfold DeleteFails dropped remove
    grind [Shell.notify, Shell.receive]

end Desk

namespace TrayLife

theorem owned_atEnd (life : TrayLife ι) : life.atEnd.Owned := by
  have hcreate : life.create.2.Owned := Desk.owned_addIcon rfl Bool.noConfusion _ _ _
  unfold atEnd
  split
  · exact Desk.owned_run hcreate life.events
  · exact hcreate

/-- A dropped icon leaves none behind, unless its deletion fails, exactly when no add has met the
icon since the shell's last restart; and while the flag is up and the shell goes on, it shows what
was set last. -/
theorem tray_icon_leaves_nothing_iff (life : TrayLife ι) (answer : Answer) :
    ((life.atEnd.dropped answer).shell.held = none ∨ life.atEnd.DeleteFails answer ↔
        life.atEnd.shell.addMetIcon = false) ∧
      (life.create.1 = true → life.atEnd.tray.iconAdded = true → life.atEnd.shell.restarted = false →
        life.atEnd.shell.held = some ⟨life.atEnd.noted.1, tipOf life.atEnd.noted.2⟩) := by
  refine ⟨life.owned_atEnd.held_dropped_iff answer, fun hcreate hflag hrestarted => ?_⟩
  have hshows : life.atEnd.Shows := by
    unfold atEnd
    rw [if_pos hcreate]
    exact Desk.shows_run (Desk.shows_addIcon rfl rfl _ _ (.inl hcreate)) life.events
  rw [← hshows.noted]
  exact hshows.shown hflag hrestarted

def readded : TrayLife Unit where
  hicon := ()
  callbackMessage := none
  tooltip := []
  held := none
  added := ⟨false, false⟩
  versioned := ⟨false, false⟩
  events := [.reAdd ⟨false, false⟩ ⟨false, false⟩]

theorem readded_icon_stays :
    ¬ ((readded.atEnd.dropped ⟨false, false⟩).shell.held = none ∨
      readded.atEnd.DeleteFails ⟨false, false⟩) := by
  have hheld : (readded.atEnd.dropped ⟨false, false⟩).shell.held = some ⟨(), tipOf []⟩ := rfl
  have hflag : readded.atEnd.tray.iconAdded = false := rfl
  rw [hheld]
  rintro (hnone | hfails)
  · exact nomatch hnone
  · exact nomatch hflag.symm.trans hfails.1

end TrayLife
end WindowsErg.Desktop
