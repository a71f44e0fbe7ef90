import Mathlib.Data.List.Forall2
import Mathlib.Order.Lattice
import Mathlib.Order.Basic

/-! # Rust integers and durations, with panics explicit

The fragment of `core` and `std` that timing code is written with: `u64`
arithmetic, the conversion from `u128`, `Duration` and `Instant`. A panic is
an error value. Integer overflow of a plain operator is a panic, as Rust
defines it where overflow checks are on; the saturating and checked methods
are total, as in Rust. -/
namespace UnichainBuilder.Lib.RustStd

inductive Panic
  | expect (msg : String)
  | divByZero
  | remByZero
  | overflow
  deriving DecidableEq, Repr

/-- A sequence of fallible steps returns when each of them does. -/
theorem bind_eq_ok {ε α β : Type} {x : Except ε α} {f : α → Except ε β} {b : β} :
    (x >>= f) = .ok b ↔ ∃ a, x = .ok a ∧ f a = .ok b := by
  cases x <;> simp [bind, Except.bind]

theorem pure_eq_ok {ε α : Type} {a b : α} : (pure a : Except ε α) = .ok b ↔ a = b := by
  simp [pure, Except.pure]

theorem map_eq_ok {ε α β : Type} {x : Except ε α} {f : α → β} {b : β} :
    x.map f = .ok b ↔ ∃ a, x = .ok a ∧ f a = b := by
  cases x <;> simp [Except.map]

theorem mapError_eq_ok {ε δ α : Type} {x : Except ε α} {f : ε → δ} {a : α} :
    x.mapError f = .ok a ↔ x = .ok a := by
  cases x <;> simp [Except.mapError]

/-- A list of fallible steps returns when each of them does. -/
theorem mapM_eq_ok_iff {ε α β : Type} {f : α → Except ε β} {as : List α} {bs : List β} :
    as.mapM f = .ok bs ↔ List.Forall₂ (fun a b => f a = .ok b) as bs := by
  induction as generalizing bs with
  | nil =>
    rw [List.mapM_nil, List.forall₂_nil_left_iff]
    exact pure_eq_ok.trans eq_comm
  | cons a as ih =>
    simp only [List.mapM_cons, bind_eq_ok, pure_eq_ok, List.forall₂_cons_left_iff, ih]
    constructor
    · rintro ⟨b, hb, bs', hbs, rfl⟩
      exact ⟨b, bs', hb, hbs, rfl⟩
    · rintro ⟨b, bs', hb, hbs, rfl⟩
      exact ⟨b, hb, bs', hbs, rfl⟩

/-- `Option::expect` and `Result::expect`. -/
def expect {α : Type} (x : Option α) (msg : String) : Except Panic α :=
  match x with
  | some a => .ok a
  | none => .error (.expect msg)

theorem expect_eq_ok {α : Type} {x : Option α} {msg : String} {a : α} :
    expect x msg = .ok a ↔ x = some a := by
  cases x <;> simp [expect]

/-- `Option::ok_or`. -/
def okOr {ε α : Type} (x : Option α) (err : ε) : Except ε α :=
  match x with
  | some a => .ok a
  | none => .error err

theorem okOr_eq_ok {ε α : Type} {x : Option α} {err : ε} {a : α} :
    okOr x err = .ok a ↔ x = some a := by
  cases x <;> simp [okOr]

/-! ## `u64` -/

def u64Max : Nat := 0xFFFFFFFFFFFFFFFF

theorem toNat_le_u64Max (a : UInt64) : a.toNat ≤ u64Max := by
  have := a.toNat_lt
  unfold u64Max; omega

theorem toNat_ofNat_of_le {n : Nat} (h : n ≤ u64Max) : (UInt64.ofNat n).toNat = n := by
  simp only [u64Max] at h
  rw [UInt64.toNat_ofNat', Nat.mod_eq_of_lt (by omega)]

theorem exists_toNat_of_le {n : Nat} (h : n ≤ u64Max) : ∃ a : UInt64, a.toNat = n :=
  ⟨UInt64.ofNat n, toNat_ofNat_of_le h⟩

/-- `u64::try_from` on a `u128`. -/
def u64TryFrom (n : Nat) : Option UInt64 :=
  if n ≤ u64Max then some (UInt64.ofNat n) else none

theorem u64TryFrom_eq_some {n : Nat} {a : UInt64} : u64TryFrom n = some a ↔ a.toNat = n := by
  unfold u64TryFrom
  constructor
  · intro h
    split at h
    · rename_i hle
      rw [← Option.some.inj h, toNat_ofNat_of_le hle]
    · cases h
  · intro h
    have hle : n ≤ u64Max := h ▸ toNat_le_u64Max a
    rw [if_pos hle, ← h, UInt64.ofNat_toNat]

/-- The `/` operator. -/
def div (a b : UInt64) : Except Panic UInt64 :=
  if b = 0 then .error .divByZero else .ok (a / b)

/-- The `%` operator. -/
def rem (a b : UInt64) : Except Panic UInt64 :=
  if b = 0 then .error .remByZero else .ok (a % b)

/-- The `+` operator. -/
def add (a b : UInt64) : Except Panic UInt64 :=
  if a.toNat + b.toNat ≤ u64Max then .ok (a + b) else .error .overflow

def checkedDiv (a b : UInt64) : Option UInt64 :=
  if b = 0 then none else some (a / b)

def saturatingMul (a b : UInt64) : UInt64 := UInt64.ofNat (min (a.toNat * b.toNat) u64Max)

def saturatingSub (a b : UInt64) : UInt64 := UInt64.ofNat (a.toNat - b.toNat)

theorem ne_zero_iff_toNat_pos {a : UInt64} : a ≠ 0 ↔ 0 < a.toNat := by
  rw [Nat.pos_iff_ne_zero]
  exact not_congr ⟨fun h => by simp [h], fun h => UInt64.toNat_inj.mp (by simpa using h)⟩

theorem div_eq_ok {a b c : UInt64} :
    div a b = .ok c ↔ 0 < b.toNat ∧ c.toNat = a.toNat / b.toNat := by
  unfold div
  rw [← ne_zero_iff_toNat_pos, ← UInt64.toNat_div, UInt64.toNat_inj]
  split <;> simp_all [eq_comm]

theorem rem_eq_ok {a b c : UInt64} :
    rem a b = .ok c ↔ 0 < b.toNat ∧ c.toNat = a.toNat % b.toNat := by
  unfold rem
  rw [← ne_zero_iff_toNat_pos, ← UInt64.toNat_mod, UInt64.toNat_inj]
  split <;> simp_all [eq_comm]

theorem add_eq_ok {a b c : UInt64} : add a b = .ok c ↔ c.toNat = a.toNat + b.toNat := by
  unfold add
  constructor
  · intro h
    split at h
    · rename_i hle
      cases h
      rw [UInt64.toNat_add, Nat.mod_eq_of_lt]
      simp only [u64Max] at hle; omega
    · cases h
  · intro h
    have hle : a.toNat + b.toNat ≤ u64Max := h ▸ toNat_le_u64Max c
    rw [if_pos hle, Except.ok.injEq, ← UInt64.toNat_inj, UInt64.toNat_add, Nat.mod_eq_of_lt, h]
    simp only [u64Max] at hle; omega

@[simp] theorem toNat_saturatingMul (a b : UInt64) :
    (saturatingMul a b).toNat = min (a.toNat * b.toNat) u64Max := by
  exact toNat_ofNat_of_le (Nat.min_le_right _ _)

@[simp] theorem toNat_saturatingSub (a b : UInt64) :
    (saturatingSub a b).toNat = a.toNat - b.toNat :=
  toNat_ofNat_of_le (Nat.le_trans (Nat.sub_le _ _) (toNat_le_u64Max a))

/-! ## `Duration` and `Instant` -/

/-- A span of time in nanoseconds. Rust bounds it by `u64::MAX` seconds; no
operation below can leave that range. -/
structure Duration where
  nanos : Nat
  deriving DecidableEq, Repr, Inhabited

namespace Duration

theorem nanos_injective : Function.Injective nanos
  | ⟨_⟩, ⟨_⟩, rfl => rfl

instance : LinearOrder Duration := LinearOrder.lift' nanos nanos_injective

theorem le_def {a b : Duration} : a ≤ b ↔ a.nanos ≤ b.nanos := Iff.rfl

@[simp] theorem nanos_min (a b : Duration) : (min a b).nanos = min a.nanos b.nanos := by
  rw [min_def, min_def]
  exact apply_ite nanos _ _ _

instance : Add Duration := ⟨fun a b => ⟨a.nanos + b.nanos⟩⟩

@[simp] theorem nanos_add (a b : Duration) : (a + b).nanos = a.nanos + b.nanos := rfl

/-- Whole milliseconds, a `u128`. -/
def asMillis (d : Duration) : Nat := d.nanos / 1000000

def fromSecs (secs : UInt64) : Duration := ⟨secs.toNat * 1000000000⟩

def fromMillis (millis : UInt64) : Duration := ⟨millis.toNat * 1000000⟩

def saturatingSub (a b : Duration) : Duration := ⟨a.nanos - b.nanos⟩

@[simp] theorem nanos_fromSecs (secs : UInt64) :
    (fromSecs secs).nanos = secs.toNat * 1000000000 := rfl

@[simp] theorem nanos_fromMillis (millis : UInt64) :
    (fromMillis millis).nanos = millis.toNat * 1000000 := rfl

@[simp] theorem nanos_saturatingSub (a b : Duration) :
    (saturatingSub a b).nanos = a.nanos - b.nanos := rfl

theorem asMillis_mono {a b : Duration} (h : a ≤ b) : a.asMillis ≤ b.asMillis :=
  Nat.div_le_div_right h

end Duration

/-- A reading of the monotonic clock. -/
structure Instant where
  nanos : Nat
  deriving DecidableEq, Repr, Inhabited

theorem Instant.nanos_inj {a b : Instant} : a.nanos = b.nanos ↔ a = b :=
  ⟨fun h => by cases a; cases b; cases h; rfl, fun h => h ▸ rfl⟩

/-- Zero when `earlier` is in fact later. -/
def Instant.durationSince (later earlier : Instant) : Duration := ⟨later.nanos - earlier.nanos⟩

end UnichainBuilder.Lib.RustStd
