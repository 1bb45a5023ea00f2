import CodexKeyboard.Keyboard.Delivery
import Mathlib.Logic.Relation

/-! The keyboard path of `app_main.cpp`: held sources, delivery and latch over two transports.

    Endpoints appear, vanish and reappear under a new epoch at any time, also between two reads of one
    event; each event carries the endpoints as they stood when it read them, and the transport's
    answer to the one report it may offer. The log of a run keeps the reports that were offered to an
    endpoint and, after every event, whether the keyboard was all released and a snapshot pending. -/

namespace CodexKeyboard.Keyboard

inductive Transport
  | usb
  | ble
deriving DecidableEq

def Transport.owner : Transport → KeyboardTransportOwner
  | .usb => .usb
  | .ble => .ble

/-- The endpoints: the current epoch of each transport, 0 while it has none, and all its epochs. -/
structure Hosts where
  epoch : Transport → UInt32
  used : Transport → List UInt32

def Hosts.init : Hosts := ⟨fun _ => 0, fun _ => []⟩

/-- An endpoint appears, in place of an older one or of none, under an epoch the transport never had;
    or it vanishes. -/
inductive HostChange (h : Hosts) : Hosts → Prop
  | appears (t : Transport) (e : UInt32) : e ≠ 0 → e ∉ h.used t →
    HostChange h ⟨Function.update h.epoch t e, Function.update h.used t (e :: h.used t)⟩
  | vanishes (t : Transport) : HostChange h { h with epoch := Function.update h.epoch t 0 }

def Evolves : Hosts → Hosts → Prop := Relation.ReflTransGen HostChange

/-- The endpoints at each read of one event, in order, and the transport's answer. -/
structure Visit where
  atUsbEpoch : Hosts
  atBleEpoch : Hosts
  atBleConnected : Hosts
  atIdentity : Hosts
  atSend : Hosts
  answer : Bool

/-- The reads of the visit happen one after the other, from `h` on. -/
structure Visit.From (v : Visit) (h : Hosts) : Prop where
  usbEpoch : Evolves h v.atUsbEpoch
  bleEpoch : Evolves v.atUsbEpoch v.atBleEpoch
  bleConnected : Evolves v.atBleEpoch v.atBleConnected
  identity : Evolves v.atBleConnected v.atIdentity
  send : Evolves v.atIdentity v.atSend

/-- The part of `AppContext` the held keyboard events work on. -/
structure KeyboardApp where
  heldKeyboard : HeldKeyboardState := .init
  keyboardDelivery : KeyboardSnapshotDelivery := {}
  keyboardTransport : KeyboardTransportLatch := {}
  sample : TransportSample := {}

/-- One line of a run's log. -/
inductive Entry
  | sent (t : Transport) (epoch : UInt32) (snapshot : HidKeyboardSnapshot) (accepted : Bool)
  | rest (allReleased : Bool) (pending : Bool)
deriving DecidableEq

/-- What `reconcile_keyboard_transport_lifetimes` samples: the USB epoch, then the BLE epoch, then
    whether BLE is connected. -/
def Visit.sample (v : Visit) : TransportSample where
  usbMounted := v.atUsbEpoch.epoch .usb != 0
  usbEpoch := v.atUsbEpoch.epoch .usb
  bleConnected := v.atBleConnected.epoch .ble != 0 && v.atBleEpoch.epoch .ble != 0
  bleEpoch :=
    if v.atBleConnected.epoch .ble != 0 && v.atBleEpoch.epoch .ble != 0 then v.atBleEpoch.epoch .ble else 0

def reconcileKeyboardTransportLifetimes (v : Visit) (app : KeyboardApp) : KeyboardApp :=
  let app := { app with sample := v.sample }
  let (invalidated, latch) := app.keyboardTransport.observeTransportState app.sample
  if invalidated then
    let held := app.heldKeyboard.current
    { app with
      keyboardDelivery := app.keyboardDelivery.reset held
      keyboardTransport := if held.empty then latch.commitSnapshot true else latch }
  else { app with keyboardTransport := latch }

/-- `send_keyboard_snapshot`: whether the snapshot counts as accepted, and what was offered. A report
    is queued for the owner's epoch only while that lifetime is current. -/
def sendKeyboardSnapshot (v : Visit) (app : KeyboardApp) (snapshot : HidKeyboardSnapshot) :
    Bool × KeyboardApp × List Entry :=
  let (owner, latch) := app.keyboardTransport.selectForSnapshot snapshot.empty app.sample
  let app := { app with keyboardTransport := latch }
  match owner with
  | .usb =>
    let accepted := v.atSend.epoch .usb != 0 && v.atSend.epoch .usb == latch.ownerEpoch && v.answer
    (accepted, app, [.sent .usb latch.ownerEpoch snapshot accepted])
  | .ble =>
    let expectedOwner := v.atIdentity.epoch .ble
    if expectedOwner = 0 ∨ expectedOwner ≠ latch.ownerEpoch then (false, app, [])
    else
      let accepted := v.atSend.epoch .ble == expectedOwner && v.answer
      (accepted, app, [.sent .ble expectedOwner snapshot accepted])
  | .none | .suppressed => (true, app, [])

def flushPendingKeyboardSnapshot (v : Visit) (app : KeyboardApp) : KeyboardApp × List Entry :=
  let app := reconcileKeyboardTransportLifetimes v app
  let pending := app.keyboardDelivery.pendingSnapshot
  if !pending.valid then
    (if app.keyboardDelivery.desired.empty then
      { app with keyboardTransport := app.keyboardTransport.commitSnapshot true } else app, [])
  else
    let (accepted, app, offered) := sendKeyboardSnapshot v app pending.snapshot
    if !accepted then (app, offered)
    else
      let (marked, delivery) := app.keyboardDelivery.markAccepted pending.generation
      if !marked then (app, offered)
      else
        ({ app with
          keyboardDelivery := delivery
          keyboardTransport := app.keyboardTransport.commitSnapshot pending.snapshot.empty }, offered)

/-- The part of `dispatch_held_keyboard_event` behind the update of the held state. -/
def dispatchUpdate (v : Visit) (app : KeyboardApp) (update : HeldKeyboardUpdate) :
    KeyboardApp × List Entry :=
  if !update.accepted then (app, [])
  else if !update.stateChanged || !update.reportChanged then (app, [])
  else
    flushPendingKeyboardSnapshot v
      { app with keyboardDelivery := app.keyboardDelivery.setDesired update.snapshot }

/-- The events of the held keyboard: key edges, the main loop's flush and reconcile, and the release
    of everything. -/
inductive KeyboardEvent
  | press (source : ℕ) (report : HidKeyboardReport)
  | release (source : ℕ)
  | flush
  | clear
  | reconcile

def KeyboardEvent.apply (v : Visit) (app : KeyboardApp) : KeyboardEvent → KeyboardApp × List Entry
  | .press source report =>
    let (update, held) := app.heldKeyboard.press source report
    dispatchUpdate v { app with heldKeyboard := held } update
  | .release source =>
    let (update, held) := app.heldKeyboard.release source
    dispatchUpdate v { app with heldKeyboard := held } update
  | .flush => flushPendingKeyboardSnapshot v app
  | .clear =>
    flushPendingKeyboardSnapshot v
      { app with
        heldKeyboard := app.heldKeyboard.clear.2
        keyboardDelivery := app.keyboardDelivery.setDesired {} }
  | .reconcile => (reconcileKeyboardTransportLifetimes v app, [])

/-- The state a log line is written of after each event. -/
def KeyboardApp.rest (app : KeyboardApp) : Entry :=
  .rest app.heldKeyboard.current.empty app.keyboardDelivery.pending

/-- The application, the endpoints and the log, newest line first. -/
structure Desk where
  app : KeyboardApp
  hosts : Hosts
  log : List Entry

def Desk.init : Desk := ⟨{}, .init, []⟩

/-- Endpoints change, or an event is handled while they change. -/
inductive DeskStep : Desk → Desk → Prop
  | hosts {d h} : Evolves d.hosts h → DeskStep d { d with hosts := h }
  | event {d} (v : Visit) (e : KeyboardEvent) : v.From d.hosts →
    DeskStep d ⟨(e.apply v d.app).1, v.atSend,
      (e.apply v d.app).1.rest :: ((e.apply v d.app).2 ++ d.log)⟩

inductive DeskReachable : Desk → Prop
  | init : DeskReachable .init
  | step {d d'} : DeskReachable d → DeskStep d d' → DeskReachable d'

/-- The endpoints reports were offered to since the keyboard last was all released with nothing
    pending. -/
def chordEndpoints : List Entry → List (Transport × UInt32)
  | [] => []
  | .rest true false :: _ => []
  | .rest _ _ :: log => chordEndpoints log
  | .sent t e _ _ :: log => (t, e) :: chordEndpoints log

/-- The last snapshot the endpoint accepted; before any, it knows of no pressed key. -/
def lastAccepted (t : Transport) (e : UInt32) : List Entry → HidKeyboardSnapshot
  | [] => {}
  | .sent t' e' snapshot true :: log => if t' = t ∧ e' = e then snapshot else lastAccepted t e log
  | _ :: log => lastAccepted t e log

end CodexKeyboard.Keyboard
