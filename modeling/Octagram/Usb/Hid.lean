/-
`usb/keyboard_usb.rs` and `usb/mouse_usb.rs`: the boot-protocol drivers. `init_*` and `shutdown_*`
run in the main context, `poll_*` in the interrupt handler, `arm_next_report` in both. What the two
do alike is one definition over the kind of the device, with the source's names below it; their
`handle_report` are two: the mouse's adds its deltas with a check, and prints a line for each
change.
-/
import Octagram.Usb.Xhci

namespace Octagram.Usb

open Octagram.Lib

/-! ## The operations of this file -/

abbrev getDriver (k : DeviceKind) : KProg (Option DriverState) := act (.getDriver k)
abbrev getKbd : KProg (Option KeyboardState) := act .getKbd
abbrev getMouse : KProg (Option MouseState) := act .getMouse

/-! ## What the two drivers share -/

namespace DeviceKind

/-- `KBD_STATE` or `MOUSE_STATE`. -/
def lock : DeviceKind → Lock
  | keyboard => .kbd
  | mouse => .mouse

/-- `KBD_DCI` or `MOUSE_DCI`. -/
def dciReg : DeviceKind → Reg
  | keyboard => .kbdDci
  | mouse => .mouseDci

/-- `KBD_SLOT_ID` or `MOUSE_SLOT_ID`. -/
def slotReg : DeviceKind → Reg
  | keyboard => .kbdSlotId
  | mouse => .mouseSlotId

/-- `KBD_REPORT_PENDING` or `MOUSE_REPORT_PENDING`. -/
def pending : DeviceKind → Flag
  | keyboard => .kbdReportPending
  | mouse => .mouseReportPending

end DeviceKind

/-- `arm_next_report`. -/
def armNextReport (k : DeviceKind) : KProg Unit := do
  lock k.lock (.armNextReport k)
  match ← getDriver k with
  | none => unlock k.lock
  | some _ =>
    lock .xhci (.armNextReportXhci k)
    let _ ← getXhci
    act (.enqueueReport k)
    unlock .xhci
    unlock k.lock

/-- `init_keyboard` and `init_mouse`; the first request is `SET_PROTOCOL` with the boot protocol. -/
def initDriver (k : DeviceKind) (message : String) (slotId : Nat) (ep : EndpointHandle) (interfaceNumber : Nat) :
    KProg Unit := do
  let _ ← controlTransferNoData slotId 0x21 0x0B 0 interfaceNumber
  let virt ← boxNew (.bytes 8)
  match ← virtToPhys virt with
  | none => panic message
  | some phys =>
    storeReg k.dciReg ep.dci
    storeReg k.slotReg slotId
    lock k.lock (.initDriver k)
    act (.newDriver k ⟨slotId, ep.ringVirt, ep.ringPhys, 0, true, ep.dci, virt, phys⟩)
    unlock k.lock
    armNextReport k

/-- `shutdown_keyboard` and `shutdown_mouse`. -/
def shutdownDriver (k : DeviceKind) (slotId : Nat) : KProg Unit := do
  lock k.lock (.shutdownDriver k)
  match ← getDriver k with
  | none => unlock k.lock
  | some st =>
    if st.slotId ≠ slotId then
      unlock k.lock
    else
      act (.dropDriver k)
      act (.boxFree st.reportBufVirt)
      storeReg k.dciReg 0
      storeReg k.slotReg 0
      storeFlag k.pending false
      unlock k.lock

/-- `poll_keyboard` and `poll_mouse`. -/
def pollDriver (k : DeviceKind) (handleReport : List UInt8 → KProg Unit) : KProg Unit := do
  if ← swapFlag k.pending false then
    lock k.lock (.pollDriver k)
    let st ← getDriver k
    unlock k.lock
    match st with
    | none => pure ()
    | some st =>
      let report ← readBytes st.reportBufVirt 8
      handleReport report
      armNextReport k
  else
    pure ()

/-! ## Keyboard -/

/-- `init_keyboard`. -/
def initKeyboard := initDriver .keyboard "gagal translate report buffer keyboard"

/-- `shutdown_keyboard`. -/
def shutdownKeyboard := shutdownDriver .keyboard

/-- `hid_keycode_to_ascii`. -/
def hidKeycodeToAscii (keycode modifier : UInt8) : Option Char :=
  let shift := modifier &&& 0x22 ≠ 0
  let k := keycode.toNat
  if 0x04 ≤ k ∧ k ≤ 0x1D then
    some (Char.ofNat ((if shift then 65 else 97) + (k - 0x04)))
  else if 0x1E ≤ k ∧ k ≤ 0x27 then
    (if shift then "!@#$%^&*()" else "1234567890").toList[k - 0x1E]?
  else if k = 0x2C then some ' '
  else if k = 0x28 then some '\n'
  else if k = 0x2A then some (Char.ofNat 8)
  else if k = 0x2B then some '\t'
  else none

/-- The loop of the keyboard's `handle_report`: print the keys that were not held before. -/
def printKeys (lastKeycodes : List UInt8) (modifier : UInt8) : List UInt8 → KProg Unit
  | [] => pure ()
  | kc :: rest => do
    if kc = 0 ∨ kc ∈ lastKeycodes then
      printKeys lastKeycodes modifier rest
    else
      match hidKeycodeToAscii kc modifier with
      | some ch =>
        act (.print ch)
        printKeys lastKeycodes modifier rest
      | none => printKeys lastKeycodes modifier rest

/-- `handle_report` of the keyboard, on the 8 bytes of a report. -/
def handleKeyboardReport (report : List UInt8) : KProg Unit := do
  lock .kbd (.handleReport .keyboard)
  match ← getKbd with
  | none => unlock .kbd
  | some st =>
    printKeys st.lastKeycodes (report.headD 0) (report.drop 2)
    act (.setLastKeycodes (report.drop 2))
    unlock .kbd

/-- `poll_keyboard`. -/
def pollKeyboard : KProg Unit := pollDriver .keyboard handleKeyboardReport

/-! ## Mouse -/

/-- `init_mouse`. -/
def initMouse := initDriver .mouse "gagal translate report buffer mouse"

/-- `shutdown_mouse`. -/
def shutdownMouse := shutdownDriver .mouse

/-- The addition of `i32` values; `none` is the overflow panic. -/
def addI32 (a b : Int) : Option Int := if -2 ^ 31 ≤ a + b ∧ a + b < 2 ^ 31 then some (a + b) else none

/-- A byte read as `i8`. -/
def asI8 (b : UInt8) : Int := if b.toNat < 128 then b.toNat else (b.toNat : Int) - 256

/-- The lines that `handle_report` of the mouse prints: the buttons that changed, and the move. -/
def mouseLines (posX posY : Int) (lastButtons : UInt8) (report : List UInt8) : List String :=
  let x := asI8 (report.getD 1 0)
  let y := asI8 (report.getD 2 0)
  let buttons := report.getD 0 0
  let pos := "(" ++ toString (posX + x) ++ ", " ++ toString (posY + y) ++ ")"
  let changed := buttons ^^^ lastButtons
  (if changed ≠ 0 then
    [((0 : UInt8), "left"), (1, "right"), (2, "middle")].filterMap fun b =>
      if changed &&& ((1 : UInt8) <<< b.1) ≠ 0 then
        some ("Mouse " ++ b.2 ++ " " ++ (if buttons &&& ((1 : UInt8) <<< b.1) ≠ 0 then "pressed"
          else "released") ++ " @ " ++ pos)
      else none
  else []) ++
  (if x ≠ 0 ∨ y ≠ 0 then ["Mouse move dx=" ++ toString x ++ " dy=" ++ toString y ++ " pos=" ++ pos] else [])

/-- They are printed with `println!`. -/
def mouseText (posX posY : Int) (lastButtons : UInt8) (report : List UInt8) : List Char :=
  (mouseLines posX posY lastButtons report).flatMap fun l => l.toList ++ ['\n']

/-- `print!` of a text, character by character. -/
def printText : List Char → KProg Unit
  | [] => pure ()
  | c :: rest => do
    act (.print c)
    printText rest

/-- `handle_report` of the mouse, on the bytes of a report: buttons, x and y. -/
def handleMouseReport (report : List UInt8) : KProg Unit := do
  lock .mouse (.handleReport .mouse)
  match ← getMouse with
  | none => unlock .mouse
  | some st =>
    match addI32 st.posX (asI8 (report.getD 1 0)), addI32 st.posY (asI8 (report.getD 2 0)) with
    | some x, some y =>
      printText (mouseText st.posX st.posY st.lastButtons report)
      -- the source stores the position before it prints; nothing reads it under the lock
      act (.setMousePos x y (report.getD 0 0))
      unlock .mouse
    | _, _ => panic "attempt to add with overflow"

/-- `poll_mouse`. -/
def pollMouse : KProg Unit := pollDriver .mouse handleMouseReport

end Octagram.Usb
