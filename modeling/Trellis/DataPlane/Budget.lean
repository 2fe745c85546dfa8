/-
# The receive budget

Receivers of transfers share one process-wide byte budget.  `transfer_receive_window` shrinks the
default window to what is left of it; `reserve` takes exactly what was offered, by a
compare-and-swap that retries, and dropping a reservation gives its bytes back.

A maximum frame above the default window is offered a window that does not hold it, which
`validate_window` refuses.  Whatever runs between the load of a reservation and its exchange, the
budget counts exactly what is reserved (`Exact`).
-/
import Mathlib.Algebra.BigOperators.Group.List.Basic
import Trellis.Lib.Run

namespace DataPlane

open Relation

def transferWindowFrames : Nat := 64
def transferWindowBytes : Nat := 16777216
def transferMaxWindowFrames : Nat := 1024
def transferMaxWindowBytes : Nat := 67108864

/-! ## The window that is offered -/

/-- Frames and bytes; `(a + b - 1) / b` is `div_ceil`.  The product fits a `u64`. -/
def transferReceiveWindow (available maxFrameBytes : Nat) : Option (Nat × Nat) :=
  let bytes := min transferWindowBytes available
  if bytes = 0 ∨ bytes < min maxFrameBytes transferWindowBytes then none
  else
    let frames := max ((transferWindowFrames * bytes + transferWindowBytes - 1) /
      transferWindowBytes) 1
    some (frames, bytes)

def validateWindow (frames bytes frame : Nat) : Except String Unit :=
  if frames = 0 ∨ bytes = 0 ∨ frames > transferMaxWindowFrames ∨
      bytes > transferMaxWindowBytes ∨ frame > bytes then
    .error "window outside protocol bounds"
  else .ok ()

theorem isSome_transferReceiveWindow :
    (transferReceiveWindow available maxFrameBytes).isSome = true ↔
      0 < available ∧ min maxFrameBytes transferWindowBytes ≤ available := by
  unfold transferReceiveWindow transferWindowBytes
  dsimp only
  split
  next hnone =>
    simp only [Option.isSome_none, Bool.false_eq_true, false_iff]
    omega
  · simp only [Option.isSome_some, true_iff]
    omega

theorem transferReceiveWindow_eq_some
    (h : transferReceiveWindow available maxFrameBytes = some (frames, bytes)) :
    bytes = min transferWindowBytes available ∧ 0 < bytes ∧
      frames = (transferWindowFrames * bytes + transferWindowBytes - 1) / transferWindowBytes ∧
      0 < frames ∧ frames ≤ transferWindowFrames := by
  unfold transferReceiveWindow at h
  dsimp only at h
  split at h
  · cases h
  cases h
  simp only [transferWindowFrames, transferWindowBytes]
  refine ⟨trivial, ?_, ?_, ?_, ?_⟩ <;> omega

/-- A window that is offered is valid unless the maximum frame exceeds every window. -/
theorem validateWindow_offered
    (h : transferReceiveWindow available maxFrameBytes = some (frames, bytes)) :
    validateWindow frames bytes maxFrameBytes = .ok () ↔ maxFrameBytes ≤ transferWindowBytes := by
  have hsome := isSome_transferReceiveWindow.mp (Option.isSome_of_eq_some h)
  obtain ⟨hbytes, hpos, -, hframes, hmost⟩ := transferReceiveWindow_eq_some h
  have hrefused : (frames = 0 ∨ bytes = 0 ∨ frames > transferMaxWindowFrames ∨
      bytes > transferMaxWindowBytes ∨ maxFrameBytes > bytes) ↔
        ¬ maxFrameBytes ≤ transferWindowBytes := by
    simp only [transferWindowFrames, transferWindowBytes, transferMaxWindowFrames,
      transferMaxWindowBytes] at *
    omega
  unfold validateWindow
  by_cases hle : maxFrameBytes ≤ transferWindowBytes
  · rw [if_neg (fun h => hrefused.mp h hle)]
    exact iff_of_true rfl hle
  · rw [if_pos (hrefused.mpr hle)]
    exact iff_of_false nofun hle

theorem transferReceiveWindow_mono (hle : available ≤ available')
    (h : transferReceiveWindow available maxFrameBytes = some (frames, bytes)) :
    ∃ frames' bytes', transferReceiveWindow available' maxFrameBytes = some (frames', bytes') ∧
      frames ≤ frames' ∧ bytes ≤ bytes' := by
  obtain ⟨hpos, hfits⟩ := isSome_transferReceiveWindow.mp (Option.isSome_of_eq_some h)
  obtain ⟨⟨frames', bytes'⟩, h'⟩ := Option.isSome_iff_exists.mp
    (isSome_transferReceiveWindow.mpr ⟨hpos.trans_le hle, hfits.trans hle⟩)
  obtain ⟨hbytes, -, hframes, -⟩ := transferReceiveWindow_eq_some h
  obtain ⟨hbytes', -, hframes', -⟩ := transferReceiveWindow_eq_some h'
  have hmono : bytes ≤ bytes' := by omega
  refine ⟨frames', bytes', h', ?_, hmono⟩
  rw [hframes, hframes']
  gcongr

/-! ## Reserving -/

/-- The shared counter, the live reservations, and the calls of `reserve` under way with what each
asks for and the count it goes by. -/
structure ReceiveBudget where
  (total reserved : Nat)
  live : List Nat
  calls : List (Nat × Nat)

namespace ReceiveBudget

def new (total : Nat) : ReceiveBudget := ⟨total, 0, [], []⟩

def offer (b : ReceiveBudget) (maxFrameBytes : Nat) : Option (Nat × Nat) :=
  transferReceiveWindow (b.total - b.reserved) maxFrameBytes

/-- One atomic step of any thread.  The weak exchange may also fail for no reason. -/
inductive Step (b : ReceiveBudget) : ReceiveBudget → Prop
  | load (bytes : Nat) : Step b { b with calls := (bytes, b.reserved) :: b.calls }
  | refuse {bytes current : Nat} (hcall : (bytes, current) ∈ b.calls)
      (hmore : 2 ^ 64 ≤ current + bytes ∨ b.total < current + bytes) :
      Step b { b with calls := b.calls.erase (bytes, current) }
  | exchange {bytes : Nat} (hcall : (bytes, b.reserved) ∈ b.calls)
      (hfits : b.reserved + bytes < 2 ^ 64 ∧ b.reserved + bytes ≤ b.total) :
      Step b
        { b with
          reserved := b.reserved + bytes
          live := bytes :: b.live
          calls := b.calls.erase (bytes, b.reserved) }
  | retry {bytes current : Nat} (hcall : (bytes, current) ∈ b.calls) :
      Step b { b with calls := (bytes, b.reserved) :: b.calls.erase (bytes, current) }
  | drop {bytes : Nat} (hlive : bytes ∈ b.live) :
      Step b
        { b with
          reserved := (b.reserved + 2 ^ 64 - bytes) % 2 ^ 64
          live := b.live.erase bytes }

/-- What is counted is what is reserved, and fits. -/
structure Exact (total : Nat) (b : ReceiveBudget) : Prop where
  total_eq : b.total = total
  reserved_eq : b.reserved = b.live.sum
  reserved_le : b.reserved ≤ total

theorem Exact.step {total : Nat} (htotal : total < 2 ^ 64)
    (hstep : b.Step b') (h : Exact total b) : Exact total b' := by
  have heq := h.total_eq
  cases hstep with
  | load | refuse | retry => exact ⟨h.total_eq, h.reserved_eq, h.reserved_le⟩
  | exchange hcall hfits =>
    refine ⟨h.total_eq, ?_, heq ▸ hfits.2⟩
    simp only [List.sum_cons, h.reserved_eq]
    omega
  | @drop bytes hlive =>
    -- the bytes of a live reservation are in the count, so the subtraction does not wrap
    have hsum : bytes + (b.live.erase bytes).sum = b.live.sum := List.sum_erase hlive
    have hreserved := h.reserved_eq
    have hle := h.reserved_le
    have hrest : (b.reserved + 2 ^ 64 - bytes) % 2 ^ 64 = (b.live.erase bytes).sum := by omega
    refine ⟨h.total_eq, hrest, ?_⟩
    dsimp only
    omega

end ReceiveBudget

/-- **What is offered fits and what is reserved is counted.**  A window is offered exactly when
something is left that holds a maximum frame or the default window; it promises no more than is
left, is valid exactly for maximum frames that a default window holds, and grows with what is left.
In every run the count is the sum of the live reservations and within the total. -/
theorem receive_window_safe (maxFrameBytes total : Nat) (htotal : total < 2 ^ 64) :
    (∀ available, (transferReceiveWindow available maxFrameBytes).isSome = true ↔
      0 < available ∧ min maxFrameBytes transferWindowBytes ≤ available) ∧
    (∀ available frames bytes,
      transferReceiveWindow available maxFrameBytes = some (frames, bytes) → bytes ≤ available ∧
        (validateWindow frames bytes maxFrameBytes = .ok () ↔ maxFrameBytes ≤ transferWindowBytes) ∧
        ∀ available' ≥ available, ∃ frames' bytes',
          transferReceiveWindow available' maxFrameBytes = some (frames', bytes') ∧
            frames ≤ frames' ∧ bytes ≤ bytes') ∧
    ∀ b, ReflTransGen ReceiveBudget.Step (.new total) b →
      b.reserved = b.live.sum ∧ b.reserved ≤ total := by
  refine ⟨fun available => isSome_transferReceiveWindow, fun available frames bytes h => ?_,
    fun b hrun => ?_⟩
  · have hbytes := (transferReceiveWindow_eq_some h).1
    exact ⟨hbytes ▸ min_le_right _ _, validateWindow_offered h,
      fun available' hle => transferReceiveWindow_mono hle h⟩
  · have hexact : ReceiveBudget.Exact total b :=
      Run.keeps (P := ReceiveBudget.Exact total) (fun _ _ => ReceiveBudget.Exact.step htotal)
        hrun ⟨rfl, rfl, Nat.zero_le _⟩
    exact ⟨hexact.reserved_eq, hexact.reserved_le⟩

theorem receive_window_safe_quarter : transferReceiveWindow 4194304 262144 = some (16, 4194304) ∧
      validateWindow 16 4194304 262144 = .ok () := by
  have hwindow : transferReceiveWindow 4194304 262144 = some (16, 4194304) := by decide
  have hsafe := (receive_window_safe 262144 (2 ^ 30) (by decide)).2.1 _ _ _ hwindow
  exact ⟨hwindow, hsafe.2.1.mpr (by decide)⟩

/-- A window is offered that does not hold a maximum frame and that `validate_window` refuses. -/
theorem window_below_frame : transferReceiveWindow 16777216 20000000 = some (64, 16777216) ∧
      validateWindow 64 16777216 20000000 = .error "window outside protocol bounds" := by
  decide +kernel

end DataPlane
