import PlumOS.Isr80h.Commands

/-!
# Interrupts

`idt/idt.c` and `idt/idt.asm`, with the callback of `keyboard/classic.c`: every way
into the kernel from user mode, to the register frame that is popped when it goes back.

## Main definitions

- `classicKeyboardHandleInterrupt` — the keyboard driver
- `interruptHandler`, `isr80hHandler`
- `raise` — an interrupt, from user mode to user mode
-/

namespace PlumOS

open StateExcept

/-! ### The keyboard driver -/

def CLASSIC_KEYBOARD_CAPSLOCK : UInt8 := 0x3A
def CLASSIC_KEYBOARD_KEY_RELEASED : UInt8 := 0x80
def ISR_KEYBOARD_INTERRUPT : Nat := 0x21

/-- `keyboard_scan_set_one`. -/
def keyboardScanSetOne : List UInt8 := [
  0x00, 0x1B, 0x31, 0x32, 0x33, 0x34, 0x35, 0x36,
  0x37, 0x38, 0x39, 0x30, 0x2D, 0x3D, 0x08, 0x09,
  0x51, 0x57, 0x45, 0x52, 0x54, 0x59, 0x55, 0x49,
  0x4F, 0x50, 0x5B, 0x5D, 0x0D, 0x00, 0x41, 0x53,
  0x44, 0x46, 0x47, 0x48, 0x4A, 0x4B, 0x4C, 0x3B,
  0x27, 0x60, 0x00, 0x5C, 0x5A, 0x58, 0x43, 0x56,
  0x42, 0x4E, 0x4D, 0x2C, 0x2E, 0x2F, 0x00, 0x2A,
  0x00, 0x20, 0x00, 0x00, 0x00, 0x00, 0x00,
  0x00, 0x00, 0x00, 0x00, 0x00, 0x00,
  0x37, 0x38, 0x39, 0x2D,
  0x34, 0x35, 0x36, 0x2B,
  0x31, 0x32, 0x33, 0x30, 0x2E]

/-- `classic_keyboard_scancode_to_char`. -/
def classicKeyboardScancodeToChar (capslock : Bool) (scancode : UInt8) : UInt8 :=
  if keyboardScanSetOne.length ≤ scancode.toNat then 0
  else
    let c := keyboardScanSetOne.getD scancode.toNat 0
    if !capslock && 0x41 ≤ c && c ≤ 0x5A then c + 32 else c

/-- `task_page`. -/
def taskPage : KM PUnit := do
  let current_task ← reads Kernel.current_task
  let _ ← taskSwitch current_task
  pure ⟨⟩

/-- `classic_keyboard_handle_interrupt`. When a key is released it comes back with the
kernel's directory loaded. -/
def classicKeyboardHandleInterrupt (scancode : UInt8) : SM PUnit := do
  onKernel kernelPage
  if scancode &&& CLASSIC_KEYBOARD_KEY_RELEASED ≠ 0 then pure ⟨⟩
  else do
    onlyIf (scancode = CLASSIC_KEYBOARD_CAPSLOCK) do
      modifies fun s => { s with capslock_state := !s.capslock_state }
    let s ← reads id
    let c := classicKeyboardScancodeToChar s.capslock_state scancode
    onlyIf (c ≠ 0) (onKernel (keyboardPush c))
    onKernel taskPage

/-! ### The handlers -/

/-- A function in `interrupt_callbacks`. -/
inductive InterruptCallback
  | exception
  | clock
  | keyboard

/-- `interrupt_callbacks[interrupt]`, as `idt_init` and `classic_keyboard_init` fill it. -/
def interruptCallbacks (interrupt : Nat) : Option InterruptCallback :=
  if interrupt < 0x20 then some .exception
  else if interrupt = 0x20 then some .clock
  else if interrupt = ISR_KEYBOARD_INTERRUPT then some .keyboard
  else none

/-- A callback. `idt_clock` is `task_next` for the tasks. -/
def InterruptCallback.run (e : Entry) : InterruptCallback → HM PUnit
  | .exception => idtHandleException e
  | .clock => switchNext e
  | .keyboard => stays (classicKeyboardHandleInterrupt e.scancode)

/-- `interrupt_handler`. -/
def interruptHandler (e : Entry) (interrupt : Nat) : HM PUnit := do
  inKernel kernelPage
  if PLUMOS_TOTAL_INTERRUPTS ≤ interrupt then inKernel (fails .outOfBounds)
  else do
    match interruptCallbacks interrupt with
    | none => pure ⟨⟩
    | some callback => do
      inKernel (taskCurrentSaveState e.frame)
      callback.run e
    inKernel taskPage

/-- `isr80h_handler`. -/
def isr80hHandler (L : Layout) (e : Entry) (command : Int) : HM Nat := do
  inKernel kernelPage
  inKernel (taskCurrentSaveState e.frame)
  let res ← isr80hHandleCommand L e command
  inKernel taskPage
  pure res

/-- `popad` and `iret`: the registers of the frame on the stack. -/
def InterruptFrame.popped (f : InterruptFrame) : Registers where
  edi := f.edi
  esi := f.esi
  ebp := f.ebp
  ebx := f.ebx
  edx := f.edx
  ecx := f.ecx
  eax := f.eax
  ip := f.ip
  cs := f.cs
  flags := f.flags
  esp := f.esp
  ss := f.ss

/-- The macro `interrupt`, when its handler comes back. -/
def interruptEntry (e : Entry) (interrupt : Nat) : HM UserReturn := do
  let interrupted ← inKernel taskCurrent
  interruptHandler e interrupt
  pure ⟨.stacked interrupted, e.frame.popped⟩

/-- `isr80h_wrapper`, when its handler comes back. -/
def isr80hWrapper (L : Layout) (e : Entry) : HM UserReturn := do
  let interrupted ← inKernel taskCurrent
  let tmp_res ← isr80hHandler L e (i32 e.frame.eax.toNat)
  pure ⟨.stacked interrupted, { e.frame.popped with eax := UInt32.ofNat tmp_res }⟩

/-- An interrupt in user mode, until the kernel goes back to user mode. -/
def raise (L : Layout) (interrupt : Nat) (e : Entry) : SM UserReturn := do
  let r ← (if interrupt = 0x80 then isr80hWrapper L e else interruptEntry e interrupt).run
  match r with
  | .ok r => pure r
  | .error r => pure r

end PlumOS
