import CodexKeyboard.Keyboard.HidReportQueue

/-! The lifetimes of the USB endpoint: `UsbEndpointLifetime` of `transport_routing.cpp`, and what TinyUSB and
    the main loop do to it in `usb_hid.cpp` under the lifetime mutex.

    The epoch is the number of a lifetime. It is 32 bits wide: an order of epochs needs fewer than 2^32 of them. -/

namespace CodexKeyboard.Usb

open Keyboard

/-- No presence is missed that is not monitored. -/
theorem unmonitored : false = true → true = false → false = true := fun h => Bool.noConfusion h

/-- Without physical presence, a fresh mount is due. -/
structure UsbEndpointLifetime where
  tinyusbMounted : Bool := false
  physicalPresenceMonitorEnabled : Bool := false
  physicalPresent : Bool := true
  freshMountRequired : Bool := false
  epoch : ℕ := 0
  absent : physicalPresenceMonitorEnabled = true → physicalPresent = false → freshMountRequired = true := by
    exact unmonitored

namespace UsbEndpointLifetime

variable (lifetime : UsbEndpointLifetime)

def advanceEpoch : UsbEndpointLifetime := { lifetime with epoch := sequenceAfter lifetime.epoch }

def onMount : UsbEndpointLifetime × Bool :=
  if h : lifetime.physicalPresenceMonitorEnabled = true ∧ lifetime.physicalPresent = false then (lifetime, false)
  else
    (advanceEpoch
      { lifetime with
        tinyusbMounted := true
        freshMountRequired := false
        absent := fun henabled habsent => absurd ⟨henabled, habsent⟩ h }, true)

def onMountWithPhysicalPresence (present : Bool) : UsbEndpointLifetime × Bool :=
  if lifetime.physicalPresenceMonitorEnabled then
    if present then
      onMount { lifetime with physicalPresent := true, absent := fun _ habsent => absurd habsent (by decide) }
    else (lifetime, false)
  else lifetime.onMount

def onUnmount : UsbEndpointLifetime × Bool :=
  if lifetime.tinyusbMounted then (advanceEpoch { lifetime with tinyusbMounted := false }, true) else (lifetime, false)

def enablePhysicalPresenceMonitor (initiallyPresent : Bool) : UsbEndpointLifetime :=
  { lifetime with
    physicalPresenceMonitorEnabled := true
    physicalPresent := initiallyPresent
    freshMountRequired := !initiallyPresent
    absent := fun _ habsent => by rw [habsent]; rfl }

def mounted : Bool :=
  lifetime.tinyusbMounted &&
    (!lifetime.physicalPresenceMonitorEnabled || (lifetime.physicalPresent && !lifetime.freshMountRequired))

def observePhysicalPresence (present : Bool) : UsbEndpointLifetime × Bool :=
  if lifetime.physicalPresenceMonitorEnabled then
    let observed : UsbEndpointLifetime :=
      { lifetime with
        physicalPresent := present
        freshMountRequired := lifetime.freshMountRequired || !present
        absent := fun _ habsent => by rw [habsent]; exact Bool.or_true _ }
    (observed, lifetime.mounted && !observed.mounted)
  else (lifetime, false)

end UsbEndpointLifetime

/-! ### The endpoint as the transport sees it -/

/-- The lifetime, `tud_mounted()`, and `lifetime_reset_pending_`. -/
structure UsbBus where
  lifetime : UsbEndpointLifetime := {}
  tudMounted : Bool := false
  lifetimeResetPending : Bool := false

/-- What happens to the endpoint. A mount callback has the sample of VBUS with it; a bus reset ends the
    configuration and calls nothing. -/
inductive UsbChange
  | mount (present : Bool)
  | unmount
  | busReset
  | presence (present : Bool)
deriving DecidableEq

namespace UsbBus

variable (bus : UsbBus)

/-- A new lifetime of the endpoint; `lost` where it calls for a reset. -/
def renewed (lifetime : UsbEndpointLifetime × Bool) : UsbBus :=
  { bus with lifetime := lifetime.1, lifetimeResetPending := lifetime.2 || bus.lifetimeResetPending }

/-- `on_tinyusb_mount`, `on_tinyusb_unmount`, the bus reset, and `observe_physical_presence`. -/
def change : UsbChange → UsbBus
  | .mount present => { bus.renewed (bus.lifetime.onMountWithPhysicalPresence present) with tudMounted := true }
  | .unmount => { bus.renewed bus.lifetime.onUnmount with tudMounted := false }
  | .busReset => { bus with tudMounted := false }
  | .presence present => bus.renewed (bus.lifetime.observePhysicalPresence present)

/-- The endpoint can be routed to. -/
def live : Bool := bus.lifetime.mounted && bus.tudMounted

def connectionEpoch : ℕ := if bus.live then bus.lifetime.epoch else 0

/-- What `lock_current_epoch` checks. -/
def lockCurrentEpoch (expectedEpoch : ℕ) : Bool :=
  expectedEpoch ≠ 0 && (bus.live && bus.lifetime.epoch = expectedEpoch)

/-- A change that brings no lifetime back: there are fewer than 2^32 of them, and no mount behind a bus reset is
    refused for want of VBUS while the lifetime before is still in force. Such a mount would put that lifetime
    back, whose queues may have been cleared since. -/
structure Orderly (change : UsbChange) : Prop where
  numbered : bus.lifetime.epoch + 1 < 2 ^ 32
  refused : change = .mount false → bus.lifetime.physicalPresenceMonitorEnabled = true → bus.lifetime.mounted = true →
    bus.tudMounted = true

end UsbBus

/-! ### No lifetime comes back -/

variable {bus : UsbBus} {lifetime : UsbEndpointLifetime} {change : UsbChange} {epoch : ℕ}

theorem sequenceAfter_small (h : epoch + 1 < 2 ^ 32) : sequenceAfter epoch = epoch + 1 := by
  rw [sequenceAfter, Nat.mod_eq_of_lt h, if_neg (Nat.succ_ne_zero epoch)]

theorem lockCurrentEpoch_iff :
    bus.lockCurrentEpoch epoch = true ↔ epoch ≠ 0 ∧ bus.live = true ∧ bus.lifetime.epoch = epoch := by
  simp [UsbBus.lockCurrentEpoch]

/-- What a callback does to a lifetime: a new number and a reset, or the number stays and nothing comes alive. -/
def Renews (lifetime : UsbEndpointLifetime) (renewed : UsbEndpointLifetime × Bool) : Prop :=
  (renewed.1.epoch = lifetime.epoch + 1 ∧ renewed.2 = true) ∨
    (renewed.1.epoch = lifetime.epoch ∧ (renewed.1.mounted = true → lifetime.mounted = true ∧ renewed.2 = false))

/-- A mount callback is refused for want of VBUS, or begins a lifetime. -/
theorem mount_cases (h : lifetime.epoch + 1 < 2 ^ 32) (present : Bool) :
    (lifetime.physicalPresenceMonitorEnabled = true ∧ present = false ∧
        lifetime.onMountWithPhysicalPresence present = (lifetime, false)) ∨
      ((lifetime.onMountWithPhysicalPresence present).1.epoch = lifetime.epoch + 1 ∧
        (lifetime.onMountWithPhysicalPresence present).2 = true) := by
  rw [UsbEndpointLifetime.onMountWithPhysicalPresence]
  split
  next henabled =>
    cases present with
    | true =>
      rw [if_pos rfl, UsbEndpointLifetime.onMount, dif_neg fun habsent => Bool.noConfusion habsent.2]
      exact .inr ⟨sequenceAfter_small h, rfl⟩
    | false => exact .inl ⟨henabled, rfl, rfl⟩
  next hdisabled =>
    rw [UsbEndpointLifetime.onMount, dif_neg fun habsent => hdisabled habsent.1]
    exact .inr ⟨sequenceAfter_small h, rfl⟩

theorem renews_mount (h : lifetime.epoch + 1 < 2 ^ 32) (present : Bool) :
    Renews lifetime (lifetime.onMountWithPhysicalPresence present) := by
  rcases mount_cases h present with ⟨-, -, hrefused⟩ | htaken
  · rw [hrefused]
    exact .inr ⟨rfl, fun hmounted => ⟨hmounted, rfl⟩⟩
  · exact .inl htaken

theorem renews_unmount (h : lifetime.epoch + 1 < 2 ^ 32) : Renews lifetime lifetime.onUnmount := by
  rw [UsbEndpointLifetime.onUnmount]
  split
  · exact .inl ⟨sequenceAfter_small h, rfl⟩
  · exact .inr ⟨rfl, fun hmounted => ⟨hmounted, rfl⟩⟩

/-- Presence that returns brings no lifetime back: a fresh mount is due. -/
theorem renews_presence (present : Bool) : Renews lifetime (lifetime.observePhysicalPresence present) := by
  rw [UsbEndpointLifetime.observePhysicalPresence]
  split
  next henabled =>
    refine .inr ⟨rfl, fun hmounted => ?_⟩
    have hlifetime : lifetime.mounted = true := by
      have habsent := lifetime.absent henabled
      simp only [UsbEndpointLifetime.mounted, henabled, Bool.not_true, Bool.false_or,
        Bool.and_eq_true, Bool.not_eq_true', Bool.or_eq_false_iff, Bool.not_eq_false'] at hmounted ⊢
      obtain ⟨hconfigured, hpresent, hfresh, -⟩ := hmounted
      refine ⟨hconfigured, ?_, hfresh⟩
      by_contra hgone
      rw [habsent (Bool.eq_false_iff.2 hgone)] at hfresh
      exact absurd hfresh (by decide)
    refine ⟨hlifetime, ?_⟩
    dsimp only at hmounted ⊢
    rw [hlifetime, hmounted]
    rfl
  · exact .inr ⟨rfl, fun hmounted => ⟨hmounted, rfl⟩⟩

theorem renewed_live (bus : UsbBus) {renewed : UsbEndpointLifetime × Bool} (hrenews : Renews bus.lifetime renewed)
    (hlive : renewed.1.mounted = true) :
    (renewed.1.epoch = bus.lifetime.epoch ∧ bus.lifetime.mounted = true ∧
        (bus.renewed renewed).lifetimeResetPending = bus.lifetimeResetPending) ∨
      (bus.lifetime.epoch < renewed.1.epoch ∧ (bus.renewed renewed).lifetimeResetPending = true) := by
  rcases hrenews with ⟨hepoch, hreset⟩ | ⟨hepoch, hsame⟩
  · refine .inr ⟨hepoch ▸ Nat.lt_succ_self _, ?_⟩
    rw [UsbBus.renewed, hreset, Bool.true_or]
  · obtain ⟨hmounted, hreset⟩ := hsame hlive
    refine .inl ⟨hepoch, hmounted, ?_⟩
    rw [UsbBus.renewed, hreset, Bool.false_or]

/-- After a change the endpoint is alive in the lifetime it was alive in, or in a new one, with a reset pending. -/
theorem change_live (h : bus.Orderly change) (hlive : (bus.change change).live = true) :
    ((bus.change change).lifetime.epoch = bus.lifetime.epoch ∧ bus.live = true ∧
        (bus.change change).lifetimeResetPending = bus.lifetimeResetPending) ∨
      (bus.lifetime.epoch < (bus.change change).lifetime.epoch ∧ (bus.change change).lifetimeResetPending = true) := by
  obtain ⟨hmounted, htud⟩ := Bool.and_eq_true_iff.1 hlive
  cases change with
  | mount present =>
    rcases mount_cases h.numbered present with ⟨henabled, rfl, hrefused⟩ | ⟨hepoch, hreset⟩
    · rw [UsbBus.change, UsbBus.renewed, hrefused] at hmounted ⊢
      have hbefore := h.refused rfl henabled hmounted
      refine .inl ⟨rfl, ?_, rfl⟩
      rw [UsbBus.live, hbefore, Bool.and_true]
      exact hmounted
    · refine .inr ⟨?_, ?_⟩
      · show bus.lifetime.epoch < (bus.lifetime.onMountWithPhysicalPresence present).1.epoch
        rw [hepoch]
        exact Nat.lt_succ_self _
      · rw [UsbBus.change, UsbBus.renewed, hreset, Bool.true_or]
  | unmount => exact absurd htud Bool.false_ne_true
  | busReset => exact absurd htud Bool.false_ne_true
  | presence present =>
    rcases renewed_live bus (renews_presence present) hmounted with ⟨hepoch, hbefore, hreset⟩ | hnew
    · refine .inl ⟨hepoch, ?_, hreset⟩
      rw [UsbBus.live, hbefore]
      exact htud
    · exact .inr hnew

theorem Renews.epoch_le {renewed : UsbEndpointLifetime × Bool} (h : Renews lifetime renewed) :
    lifetime.epoch ≤ renewed.1.epoch := by
  rcases h with ⟨hepoch, -⟩ | ⟨hepoch, -⟩
  · rw [hepoch]
    exact Nat.le_succ _
  · exact Nat.le_of_eq hepoch.symm

theorem change_epoch (h : bus.Orderly change) : bus.lifetime.epoch ≤ (bus.change change).lifetime.epoch := by
  cases change with
  | mount present => exact (renews_mount h.numbered present).epoch_le
  | unmount => exact (renews_unmount h.numbered).epoch_le
  | busReset => exact Nat.le_refl _
  | presence present => exact (renews_presence present).epoch_le

end CodexKeyboard.Usb
