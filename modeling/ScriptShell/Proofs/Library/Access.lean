import ScriptShell.Library.Functions
import ScriptShell.Proofs.Evaluation.Running
import ScriptShell.Proofs.Memory
import ScriptShell.Proofs.Number.Order

namespace ScriptShell

namespace Number

variable {x : Float}

theorem toInt64_of_isFinite (hx : x.isFinite = true) :
    toInt64 x = max minInt64 (min maxInt64 (integerPart x)) := by
  have hnan : x.isNaN = false := isNaN_of_le ((le_iff hx hx).mpr (Int.le_refl _))
  rw [toInt64, hnan, hx]
  rfl

/-- The byte that is stored for a number. -/
theorem ofNat_toInt64 (hx : x.isFinite = true) :
    UInt8.ofNat (toInt64 x % 256).toNat =
      if integerPart x < 2 ^ 63 then UInt8.ofInt (integerPart x) else 255 := by
  rw [toInt64_of_isFinite hx]
  have hmax : maxInt64 = 2 ^ 63 - 1 := rfl
  have hmin : minInt64 = -2 ^ 63 := rfl
  split
  · next hlt =>
    rw [Int.min_eq_right (by omega)]
    by_cases hge : -2 ^ 63 ≤ integerPart x
    · rw [Int.max_eq_right (by omega)]
      rfl
    · -- Such a number is a multiple of 256, as the least one of 64 bits is.
      have hdvd : 2 ^ 11 ∣ integerPart x := dvd_integerPart (by omega)
      have hzero : integerPart x % 2 ^ 8 = 0 := by omega
      rw [Int.max_eq_left (by omega), UInt8.ofInt, hzero]
      rfl
  · next hge =>
    rw [Int.min_eq_left (by omega)]
    rfl

theorem toUInt32_of_isFinite (hx : x.isFinite = true) :
    toUInt32 x = UInt32.ofInt (integerPart x) :=
  if_pos hx

end Number

namespace Memory

theorem toNat_ofInt (n : Int) : ((UInt32.ofInt n).toNat : Int) = n % 2 ^ 32 := by
  have hlt : (n % 2 ^ 32).toNat < 2 ^ 32 := by omega
  have hmod : (UInt32.ofInt n).toNat = (n % 2 ^ 32).toNat := Nat.mod_eq_of_lt hlt
  omega

theorem toNat_byteOf (w : UInt32) (i : Nat) : (byteOf w i).toNat = w.toNat / 256 ^ i % 256 :=
  rfl

theorem byteOf_ofInt_zero (n : Int) : byteOf (UInt32.ofInt n) 0 = UInt8.ofInt n := by
  have hword := toNat_ofInt n
  have hbyte : (UInt8.ofInt n).toNat = (n % 2 ^ 8).toNat % 256 := rfl
  refine UInt8.toNat_inj.mp ?_
  rw [toNat_byteOf, hbyte]
  omega

theorem ofBytes_byteOf (w : UInt32) : ofBytes (byteOf w) = w.toNat := by
  have hlt := w.toNat_lt
  simp only [ofBytes, toNat_byteOf]
  omega

theorem bmod_ofBytes (n : Int) :
    Int.bmod (ofBytes (byteOf (UInt32.ofInt n))) (2 ^ 32) = Int.bmod n (2 ^ 32) := by
  rw [ofBytes_byteOf, toNat_ofInt]
  exact Int.emod_bmod ..

end Memory

/-- A state with another memory. -/
def Evaluation.State.withMemory {σ : Type} (s : State σ) (m : Memory) : State σ :=
  { s with runtime := { s.runtime with memory := m } }

namespace Library

open Evaluation

section Calls

variable {σ : Type} (host : Host σ) {s : State σ} {m : Memory} {address x : Float}

theorem liftFault_of_ok {α : Type} {r : Except Fault α} {a : α} (h : r = .ok a) :
    liftFault r s = .ok a s := by
  rw [h]
  rfl

theorem memory_apply : memory s = .ok s.runtime.memory s :=
  rfl

theorem addressArg_apply (args : List Value) :
    addressArg (.number address :: args) 0 s = .ok (addressOf address) s :=
  rfl

theorem setMemory_of_ok {r : Except Fault Memory} (h : r = .ok m) :
    setMemory r s = .ok () (s.withMemory m) := by
  rw [h]
  rfl

theorem call_peekByte {b : UInt8} (h : s.runtime.memory.readByte (addressOf address) = .ok b) :
    call host .peekByte [.number address] s = .ok (.number (Number.ofNat b.toNat)) s :=
  (bind_of_ok memory_apply _).trans <| (bind_of_ok (addressArg_apply _) _).trans <|
    bind_of_ok (liftFault_of_ok h) _

theorem call_peekWord {w : Int32} (h : s.runtime.memory.readWord (addressOf address) = .ok w) :
    call host .peekWord [.number address] s = .ok (.number (Number.ofInt w.toInt)) s :=
  (bind_of_ok memory_apply _).trans <| (bind_of_ok (addressArg_apply _) _).trans <|
    bind_of_ok (liftFault_of_ok h) _

theorem call_pokeByte (hx : x.isFinite = true)
    (h : s.runtime.memory.writeByte (addressOf address)
      (UInt8.ofNat (Number.toInt64 x % 256).toNat) = .ok m) :
    call host .pokeByte [.number address, .number x] s = .ok .undefined (s.withMemory m) := by
  have hvalue : ask (·.number (arg [.number address, .number x] 1)) s = .ok x s := rfl
  have hfinite : (if x.isFinite then Number.toInt64 x else 0) = Number.toInt64 x := if_pos hx
  rw [← hfinite] at h
  exact (bind_of_ok hvalue _).trans <| (bind_of_ok (addressArg_apply _) _).trans <|
    (bind_of_ok memory_apply _).trans <| bind_of_ok (setMemory_of_ok h) _

theorem call_pokeWord
    (h : s.runtime.memory.writeWord (addressOf address) (Number.toInt32 x) = .ok m) :
    call host .pokeWord [.number address, .number x] s = .ok .undefined (s.withMemory m) := by
  have hvalue : ask (·.int32 (arg [.number address, .number x] 1)) s =
      .ok (Number.toInt32 x) s := rfl
  exact (bind_of_ok hvalue _).trans <| (bind_of_ok (addressArg_apply _) _).trans <|
    (bind_of_ok memory_apply _).trans <| bind_of_ok (setMemory_of_ok h) _

end Calls

/-- How much of memory is accessed at once. -/
inductive Width where
  | byte
  | word

def Width.size : Width → Nat
  | .byte => 1
  | .word => 4

/-- The bytes that are stored for a number, the lowest first. -/
def Width.stored : Width → Float → Nat → UInt8
  | .byte, x, _ =>
    if Number.integerPart x < 2 ^ 63 then UInt8.ofInt (Number.integerPart x) else 255
  | .word, x, i => Memory.byteOf (UInt32.ofInt (Number.integerPart x)) i

/-- The number that bytes are read as: a byte without a sign, a word with one. -/
def Width.read : Width → (Nat → UInt8) → Float
  | .byte, f => Number.ofNat (f 0).toNat
  | .word, f => Number.ofInt (Int.bmod (Memory.ofBytes f) (2 ^ 32))

/-- An access to memory at the address that a number denotes. -/
structure Access where
  width : Width
  address : Float
  /-- What is stored, nothing if the access reads. -/
  value? : Option Float

namespace Access

variable {σ : Type}

/-- The call that makes an access. -/
def run (host : Host σ) (a : Access) : Eval σ Value :=
  match a.width, a.value? with
  | .byte, none => call host .peekByte [.number a.address]
  | .byte, some x => call host .pokeByte [.number a.address, .number x]
  | .word, none => call host .peekWord [.number a.address]
  | .word, some x => call host .pokeWord [.number a.address, .number x]

/-- The bytes that an access leaves. -/
def leave (a : Access) (bytes : Bytes) : Bytes :=
  match a.value? with
  | none => bytes
  | some x => bytes.overlay (addressOf a.address) a.width.size (a.width.stored x)

/-- What an access answers. -/
def answer (a : Access) (bytes : Bytes) : Value :=
  match a.value? with
  | none => .number (a.width.read fun i => (bytes (addressOf a.address + i)).getD 0)
  | some _ => .undefined

/-- An access to memory that is there, of a finite number if one is stored. -/
structure Fits (bytes : Bytes) (a : Access) : Prop where
  room : bytes.HasRoom (addressOf a.address) a.width.size
  finite : ∀ x ∈ a.value?, x.isFinite = true

/-- What accesses in turn leave. -/
def leaveAll (bytes : Bytes) (as : List Access) : Bytes :=
  as.foldl (fun bytes a => a.leave bytes) bytes

/-- What accesses in turn answer. -/
def answerAll : Bytes → List Access → List Value
  | _, [] => []
  | bytes, a :: as => a.answer bytes :: answerAll (a.leave bytes) as

theorem run_of_fits (host : Host σ) {a : Access} {s : State σ}
    (h : a.Fits s.runtime.memory.byte?) :
    ∃ m, a.run host s = .ok (a.answer s.runtime.memory.byte?) (s.withMemory m) ∧
      m.byte? = a.leave s.runtime.memory.byte? := by
  obtain ⟨width, address, value?⟩ := a
  obtain ⟨hroom, hfinite⟩ := h
  -- Whether it reads or writes, for either width: two functions to peek and two to poke.
  cases value? with
  | none =>
    have hread : ∀ i < width.size, s.runtime.memory.byte? (addressOf address + i) =
        some ((s.runtime.memory.byte? (addressOf address + i)).getD 0) := fun i hi => by
      obtain ⟨b, hb⟩ := Option.isSome_iff_exists.mp (hroom i hi)
      rw [hb, Option.getD_some]
    refine ⟨s.runtime.memory, ?_, rfl⟩
    cases width with
    | byte => exact call_peekByte host (Memory.readByte_of_byte? (hread 0 (by decide)))
    | word =>
      obtain ⟨word, hword, hint⟩ := Memory.readWord_of_byte? hread
      refine (call_peekWord host hword).trans ?_
      rw [hint]
      rfl
  | some x =>
    have hx := hfinite x rfl
    cases width with
    | byte =>
      obtain ⟨m, hwrite, hbytes⟩ :=
        Memory.writeByte_of_byte? (hroom 0 Nat.one_pos) (Width.byte.stored x 0)
      refine ⟨m, call_pokeByte host hx ?_, hbytes⟩
      rw [Number.ofNat_toInt64 hx]
      exact hwrite
    | word =>
      obtain ⟨m, hwrite, hbytes⟩ := Memory.writeWord_of_byte? hroom (Number.toInt32 x)
      refine ⟨m, call_pokeWord host hwrite, ?_⟩
      have hword : (Number.toInt32 x).toUInt32 = UInt32.ofInt (Number.integerPart x) :=
        Number.toUInt32_of_isFinite hx
      rw [hbytes, hword]
      rfl

theorem isSome_leave {a : Access} {bytes : Bytes} (h : a.Fits bytes) (i : Nat) :
    (a.leave bytes i).isSome = (bytes i).isSome := by
  obtain ⟨width, address, value?⟩ := a
  cases value? with
  | none => rfl
  | some x => exact Bytes.isSome_overlay h.room i

theorem Fits.leave {a b : Access} {bytes : Bytes} (ha : a.Fits bytes) (hb : b.Fits bytes) :
    b.Fits (a.leave bytes) :=
  ⟨fun i hi => (isSome_leave ha _).trans (hb.room i hi), hb.finite⟩

theorem run_all (host : Host σ) {as : List Access} {s : State σ}
    (h : ∀ a ∈ as, a.Fits s.runtime.memory.byte?) :
    ∃ m, as.mapM (run host) s = .ok (answerAll s.runtime.memory.byte? as) (s.withMemory m) ∧
      m.byte? = leaveAll s.runtime.memory.byte? as := by
  -- The first access keeps every byte in reach, so the others still fit.
  induction as generalizing s with
  | nil => exact ⟨s.runtime.memory, rfl, rfl⟩
  | cons a as ih =>
    have ha := h a List.mem_cons_self
    obtain ⟨m, hrun, hbytes⟩ := run_of_fits host ha
    have hrest : ∀ b ∈ as, b.Fits (s.withMemory m).runtime.memory.byte? := fun b hb => by
      change b.Fits m.byte?
      exact hbytes ▸ ha.leave (h b (List.mem_cons_of_mem _ hb))
    obtain ⟨m', hrun', hbytes'⟩ := ih hrest
    refine ⟨m', ?_, ?_⟩
    · rw [List.mapM_cons]
      refine (bind_of_ok hrun _).trans ((bind_of_ok hrun' _).trans ?_)
      rw [answerAll, ← hbytes]
      rfl
    · rw [hbytes']
      change leaveAll m.byte? as = _
      rw [hbytes]
      rfl

/-- What was stored is read at the same address. -/
theorem answer_leave (width : Width) (address x : Float) (bytes : Bytes) :
    answer ⟨width, address, none⟩ (leave ⟨width, address, some x⟩ bytes) =
      .number (match width with
        | .byte => Number.ofNat (Width.byte.stored x 0).toNat
        | .word => Number.ofInt (Int.bmod (Number.integerPart x) (2 ^ 32))) := by
  have hread (i : Nat) (hi : i < width.size) :
      (leave ⟨width, address, some x⟩ bytes (addressOf address + i)).getD 0 =
        width.stored x i :=
    congrArg (Option.getD · 0) (Bytes.overlay_of_lt hi)
  cases width with
  | byte =>
    have hbyte := hread 0 (by decide)
    exact congrArg (fun b : UInt8 => Value.number (Number.ofNat b.toNat)) hbyte
  | word =>
    rw [← Memory.bmod_ofBytes]
    have hword : Memory.ofBytes (fun i => (leave ⟨.word, address, some x⟩ bytes
        (addressOf address + i)).getD 0) =
        Memory.ofBytes (Memory.byteOf (UInt32.ofInt (Number.integerPart x))) := by
      rw [Memory.ofBytes, hread 0 (by decide), hread 1 (by decide), hread 2 (by decide),
        hread 3 (by decide)]
      rfl
    exact congrArg (fun n : Nat => Value.number (Number.ofInt (Int.bmod n (2 ^ 32)))) hword

theorem stored_eq_iff (x : Float) :
    Width.byte.stored x 0 = Width.word.stored x 0 ↔ Number.integerPart x < 2 ^ 63 := by
  have hword : Width.word.stored x 0 = UInt8.ofInt (Number.integerPart x) :=
    Memory.byteOf_ofInt_zero _
  rw [hword, Width.stored]
  split
  · next hlt => exact iff_of_true rfl hlt
  · next hge =>
    refine iff_of_false (fun heq => ?_) hge
    have hdvd : 2 ^ 11 ∣ Number.integerPart x := Number.dvd_integerPart (by omega)
    have hzero : Number.integerPart x % 2 ^ 8 = 0 := by omega
    rw [UInt8.ofInt, hzero] at heq
    revert heq
    decide

/-- However accesses follow one another, each answers what those before it left and leaves all
bytes but its own as they were. A word stored is read as the remainder of the integer part, with
a sign; a byte is the low byte of that word unless the integer part passes 64 bits. -/
theorem run_in_turn (host : Host σ) {s : State σ} {as : List Access}
    (h : ∀ a ∈ as, a.Fits s.runtime.memory.byte?) :
    (∃ m, as.mapM (run host) s = .ok (answerAll s.runtime.memory.byte? as) (s.withMemory m) ∧
        m.byte? = leaveAll s.runtime.memory.byte? as) ∧
      (∀ width address x bytes,
        answer ⟨width, address, none⟩ (leave ⟨width, address, some x⟩ bytes) =
          .number (match width with
            | .byte => Number.ofNat (Width.byte.stored x 0).toNat
            | .word => Number.ofInt (Int.bmod (Number.integerPart x) (2 ^ 32)))) ∧
      ∀ x, Width.byte.stored x 0 = Width.word.stored x 0 ↔ Number.integerPart x < 2 ^ 63 :=
  ⟨run_all host h, answer_leave, stored_eq_iff⟩

def overlapping : List Access :=
  [⟨.word, 2097153, some (-2)⟩, ⟨.byte, 2097152, some 100000000000000000000⟩,
    ⟨.word, 2097152, none⟩]

def atRest : State Recording :=
  (State.initial (Recording.start ⟨none, none⟩)).withMemory ⟨[⟨2097152, Array.replicate 64 0⟩]⟩

theorem run_in_turn_overlapping :
    (∀ a ∈ overlapping, a.Fits atRest.runtime.memory.byte?) ∧
      ∃ m, overlapping.mapM (run recorder) atRest =
        .ok [.undefined, .undefined, .number (Number.ofInt (-257))] (atRest.withMemory m) := by
  have hfits : ∀ a ∈ overlapping, a.Fits atRest.runtime.memory.byte? := by
    rw [overlapping, List.forall_mem_cons, List.forall_mem_cons, List.forall_mem_singleton]
    refine ⟨⟨by decide +kernel, fun x hx => ?_⟩, ⟨by decide +kernel, fun x hx => ?_⟩,
      by decide +kernel, nofun⟩
    all_goals
      rw [← Option.mem_some.mp hx]
      decide +kernel
  obtain ⟨m, hrun, -⟩ := (run_in_turn recorder hfits).1
  refine ⟨hfits, m, hrun.trans ?_⟩
  have hword : Int.bmod (Memory.ofBytes fun i =>
      ((leaveAll atRest.runtime.memory.byte? (overlapping.take 2)) (addressOf 2097152 + i)).getD 0)
        (2 ^ 32) = -257 := by
    decide +kernel
  exact congrArg (fun n => EStateM.Result.ok
    [Value.undefined, .undefined, .number (Number.ofInt n)] (atRest.withMemory m)) hword

end Access

end Library

end ScriptShell
