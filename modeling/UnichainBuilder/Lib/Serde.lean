import Mathlib.Data.List.Forall2
import Mathlib.Data.List.Nodup
import UnichainBuilder.Lib.RustStd

/-! # Structs as derived serializers write and read them

JSON values keep the entries of an object in order, repeated keys included. A
struct is a family of fields, each with a name, a codec and the attributes
`default` and `skip_serializing_if`; a value of it assigns to each field a value
of the field's own type. Reading fills one slot a field. -/
namespace UnichainBuilder.Lib.Serde
open UnichainBuilder.Lib.RustStd

inductive Number
  | pos (n : UInt64)
  | neg (n : Int)
  | float (text : String)
  deriving DecidableEq

inductive Json
  | null
  | bool (b : Bool)
  | number (n : Number)
  | str (s : String)
  | arr (items : List Json)
  | obj (entries : List (String × Json))

inductive DeError
  | custom (msg : String)
  | invalidType (expected : String)
  | invalidValue (expected : String)
  | invalidLength (length : Nat)
  | missingField (name : String)
  | duplicateField (name : String)
  | trailing
  deriving DecidableEq

/-! ## Codecs -/

structure Codec (α : Type) where
  serialize : α → Json
  deserialize : Json → Except DeError α

namespace Codec
variable {α : Type}

/-- What is written of `a` reads as `a`. -/
def RoundTrips (c : Codec α) (a : α) : Prop := c.deserialize (c.serialize a) = .ok a

theorem serialize_injective {c : Codec α} (h : ∀ a, c.RoundTrips a) :
    Function.Injective c.serialize := by
  intro a b hab
  have ha := h a
  rw [RoundTrips, hab, h b] at ha
  exact (Except.ok.inj ha).symm

def u64 : Codec UInt64 where
  serialize n := .number (.pos n)
  deserialize
    | .number (.pos n) => .ok n
    | .number (.neg _) => .error (.invalidValue "u64")
    | _ => .error (.invalidType "u64")

def u8 : Codec UInt8 where
  serialize n := .number (.pos n.toUInt64)
  deserialize
    | .number (.pos n) => if n < 256 then .ok n.toUInt8 else .error (.invalidValue "u8")
    | .number (.neg _) => .error (.invalidValue "u8")
    | _ => .error (.invalidType "u8")

def vec (c : Codec α) : Codec (List α) where
  serialize as := .arr (as.map c.serialize)
  deserialize
    | .arr items => items.mapM c.deserialize
    | _ => .error (.invalidType "a sequence")

def option (c : Codec α) : Codec (Option α) where
  serialize
    | none => .null
    | some a => c.serialize a
  deserialize
    | .null => .ok none
    | json => (c.deserialize json).map some

theorem roundTrips_u64 (n : UInt64) : u64.RoundTrips n := rfl

theorem forall₂_comp_iff {β γ : Type} {R : α → β → Prop} {S : β → γ → Prop} {as : List α}
    {cs : List γ} : (∃ bs, List.Forall₂ R as bs ∧ List.Forall₂ S bs cs) ↔
      List.Forall₂ (fun a c => ∃ b, R a b ∧ S b c) as cs := by
  constructor
  · rintro ⟨bs, hR, hS⟩
    induction hR generalizing cs with
    | nil => cases hS; exact .nil
    | cons hab _ ih =>
      cases hS with
      | cons hbc hrest => exact .cons ⟨_, hab, hbc⟩ (ih hrest)
  · intro h
    induction h with
    | nil => exact ⟨[], .nil, .nil⟩
    | cons hac _ ih =>
      obtain ⟨b, hab, hbc⟩ := hac
      obtain ⟨bs, hR, hS⟩ := ih
      exact ⟨b :: bs, .cons hab hR, .cons hbc hS⟩

theorem mapM_map_eq_ok {β ε : Type} {f : β → α} {g : α → Except ε β} {bs : List β}
    (h : ∀ b ∈ bs, g (f b) = .ok b) : (bs.map f).mapM g = .ok bs := by
  induction bs with
  | nil => rfl
  | cons b bs ih =>
    obtain ⟨hb, hbs⟩ := List.forall_mem_cons.mp h
    rw [List.map_cons, List.mapM_cons, hb, ih hbs]
    rfl

theorem RoundTrips.vec {c : Codec α} {as : List α} (h : ∀ a ∈ as, c.RoundTrips a) :
    c.vec.RoundTrips as := mapM_map_eq_ok h

/-- A codec that never writes `null` may be made optional. -/
theorem RoundTrips.option {c : Codec α} {a : Option α} (h : ∀ x ∈ a, c.RoundTrips x)
    (hnull : ∀ x ∈ a, c.serialize x ≠ .null) : c.option.RoundTrips a := by
  cases a with
  | none => rfl
  | some x =>
    have hx := h x rfl
    have hne := hnull x rfl
    unfold RoundTrips at hx ⊢
    simp only [Codec.option]
    rw [hx]
    rfl

end Codec

/-! ## Structs -/

/-- One field with its attributes. -/
structure StructField (α : Type) extends Codec α where
  name : String
  default : Option α := none
  skipIf : α → Bool := fun _ => false

/-- The fields in the order of their declaration. -/
structure Struct (F : Type) (Ty : F → Type) where
  fields : List F
  field : ∀ f, StructField (Ty f)
  mem_fields : ∀ f, f ∈ fields
  nodup_fields : fields.Nodup
  names_injective : Function.Injective fun f => (field f).name

/-- What has been read so far. -/
abbrev Slots {F : Type} (Ty : F → Type) : Type := ∀ f, Option (Ty f)

namespace Struct
variable {F : Type} {Ty : F → Type}

def entry (s : Struct F Ty) (value : ∀ f, Ty f) (f : F) : String × Json :=
  ((s.field f).name, (s.field f).serialize (value f))

def serialize (s : Struct F Ty) (value : ∀ f, Ty f) : Json :=
  .obj ((s.fields.filter fun f => !(s.field f).skipIf (value f)).map (s.entry value))

def fieldNamed (s : Struct F Ty) (name : String) : Option F :=
  s.fields.find? fun f => (s.field f).name = name

theorem fieldNamed_name (s : Struct F Ty) (f : F) : s.fieldNamed (s.field f).name = some f := by
  unfold fieldNamed
  cases hfound : s.fields.find? fun g => (s.field g).name = (s.field f).name with
  | none =>
    have := List.find?_eq_none.mp hfound f (s.mem_fields f)
    simp at this
  | some g =>
    have hname := List.find?_some hfound
    rw [s.names_injective (of_decide_eq_true hname)]

theorem name_of_fieldNamed {s : Struct F Ty} {name : String} {f : F}
    (h : s.fieldNamed name = some f) :
    (s.field f).name = name :=
  of_decide_eq_true (List.find?_some (p := fun f => decide ((s.field f).name = name)) h)

variable [DecidableEq F]

/-- An unknown key is ignored, a repeated one is an error. -/
def visitEntry (s : Struct F Ty) (slots : Slots Ty) (entry : String × Json) :
    Except DeError (Slots Ty) :=
  match s.fieldNamed entry.1 with
  | none => .ok slots
  | some f =>
    if (slots f).isSome then .error (.duplicateField (s.field f).name)
    else ((s.field f).deserialize entry.2).map fun a => Function.update slots f (some a)

def visitMap (s : Struct F Ty) (slots : Slots Ty) (entries : List (String × Json)) :
    Except DeError (Slots Ty) :=
  entries.foldlM s.visitEntry slots

/-- The items in the order of the fields; those with a default may be left out
at the end. `index` counts the fields that were read. -/
def visitSeq (s : Struct F Ty) (slots : Slots Ty) (index : Nat) :
    List F → List Json → Except DeError (Slots Ty)
  | [], [] => .ok slots
  | [], _ :: _ => .error .trailing
  | f :: fields, [] =>
    if (s.field f).default.isSome then s.visitSeq slots (index + 1) fields []
    else .error (.invalidLength index)
  | f :: fields, item :: items => do
    let a ← (s.field f).deserialize item
    s.visitSeq (Function.update slots f (some a)) (index + 1) fields items

def visit (s : Struct F Ty) : Json → Except DeError (Slots Ty)
  | .obj entries => s.visitMap (fun _ => none) entries
  | .arr items => s.visitSeq (fun _ => none) 0 s.fields items
  | _ => .error (.invalidType "struct")

/-- The value of a field once all is read. -/
def finish (s : Struct F Ty) (slots : Slots Ty) (f : F) : Except DeError (Ty f) :=
  match slots f, (s.field f).default with
  | some a, _ => .ok a
  | none, some a => .ok a
  | none, none => .error (.missingField (s.field f).name)

/-- What the JSON value says of a field. -/
def member (s : Struct F Ty) (f : F) : Json → Option Json
  | .obj entries => entries.lookup (s.field f).name
  | .arr items => (s.fields.zip items).lookup f
  | _ => none

variable {s : Struct F Ty}

/-! ### Reading what was written -/

theorem visitMap_entries (s : Struct F Ty) (value : ∀ f, Ty f) {fields : List F} {slots : Slots Ty}
    (hnodup : fields.Nodup) (hempty : ∀ f ∈ fields, slots f = none)
    (hround : ∀ f ∈ fields, (s.field f).RoundTrips (value f)) :
    ∃ slots', s.visitMap slots (fields.map (s.entry value)) = .ok slots' ∧
      ∀ f, slots' f = if f ∈ fields then some (value f) else slots f := by
  induction fields generalizing slots with
  | nil => exact ⟨slots, rfl, fun f => by simp⟩
  | cons f fields ih =>
    obtain ⟨hnew, hnodup⟩ := List.nodup_cons.mp hnodup
    obtain ⟨hf, hempty⟩ := List.forall_mem_cons.mp hempty
    obtain ⟨hfround, hround⟩ := List.forall_mem_cons.mp hround
    have hstep : s.visitEntry slots (s.entry value f) =
        .ok (Function.update slots f (some (value f))) := by
      have hread : (s.field f).deserialize ((s.field f).serialize (value f)) = .ok (value f) :=
        hfround
      simp only [visitEntry, entry, fieldNamed_name, hf, hread]
      rfl
    have hempty' : ∀ g ∈ fields, Function.update slots f (some (value f)) g = none := by
      intro g hg
      rw [Function.update_of_ne (ne_of_mem_of_not_mem hg hnew)]
      exact hempty g hg
    obtain ⟨slots', hvisit, hslots⟩ := ih hnodup hempty' hround
    refine ⟨slots', ?_, fun g => ?_⟩
    · rw [visitMap, List.map_cons, List.foldlM_cons, hstep]
      exact hvisit
    · rw [hslots g]
      by_cases hgf : g = f
      · subst hgf
        simp
      · simp [hgf]

/-- **A struct round-trips when its fields do**: those that are written by
their codec, those that are left out by their default. -/
theorem roundTrip (value : ∀ f, Ty f)
    (hwritten : ∀ f, (s.field f).skipIf (value f) = false → (s.field f).RoundTrips (value f))
    (hskipped : ∀ f, (s.field f).skipIf (value f) = true →
      (s.field f).default = some (value f)) :
    ∃ slots, s.visit (s.serialize value) = .ok slots ∧
      ∀ f, s.finish slots f = .ok (value f) := by
  have hnodup := s.nodup_fields.filter fun f => !(s.field f).skipIf (value f)
  obtain ⟨slots, hvisit, hslots⟩ := visitMap_entries s value hnodup
    (fun _ _ => rfl : ∀ f ∈ _, (none : Option (Ty f)) = none) fun f hf =>
      hwritten f (by simpa using (List.mem_filter.mp hf).2)
  refine ⟨slots, hvisit, fun f => ?_⟩
  have hf := hslots f
  rw [finish]
  cases hskip : (s.field f).skipIf (value f) with
  | true =>
    rw [if_neg (by simp [hskip])] at hf
    rw [hf, hskipped f hskip]
  | false =>
    rw [if_pos (List.mem_filter.mpr ⟨s.mem_fields f, by simp [hskip]⟩)] at hf
    rw [hf]

/-! ### What was read -/

/-- An entry names no field and changes nothing, or fills the empty slot of
the field that it names. -/
theorem cases_of_visitEntry {slots next : Slots Ty} {key : String} {json : Json}
    (h : s.visitEntry slots (key, json) = .ok next) :
    (next = slots ∧ ∀ f, (s.field f).name ≠ key) ∨
      ∃ f a, (s.field f).name = key ∧ slots f = none ∧ (s.field f).deserialize json = .ok a ∧
        next = Function.update slots f (some a) := by
  unfold visitEntry at h
  cases hnamed : s.fieldNamed key with
  | none =>
    rw [hnamed] at h
    refine .inl ⟨(Except.ok.inj h).symm, fun f hname => ?_⟩
    rw [← hname, fieldNamed_name] at hnamed
    cases hnamed
  | some f =>
    rw [hnamed] at h
    dsimp only at h
    by_cases hfilled : (slots f).isSome
    · rw [if_pos hfilled] at h
      cases h
    · rw [if_neg hfilled] at h
      obtain ⟨a, hread, hnext⟩ := map_eq_ok.mp h
      exact .inr ⟨f, a, name_of_fieldNamed hnamed,
        Option.not_isSome_iff_eq_none.mp hfilled, hread, hnext.symm⟩

theorem visitMap_keeps {slots slots' : Slots Ty} {entries : List (String × Json)} {f : F}
    {a : Ty f} (h : s.visitMap slots entries = .ok slots') (hf : slots f = some a) :
    slots' f = some a := by
  induction entries generalizing slots with
  | nil => cases h; exact hf
  | cons entry entries ih =>
    obtain ⟨next, hstep, hrest⟩ := bind_eq_ok.mp h
    refine ih hrest ?_
    rcases cases_of_visitEntry hstep with ⟨rfl, _⟩ | ⟨g, b, _, hempty, _, rfl⟩
    · exact hf
    · have hgf : f ≠ g := by
        intro h
        subst h
        rw [hempty] at hf
        cases hf
      rw [Function.update_of_ne hgf]
      exact hf

theorem lookup_of_visitMap {slots slots' : Slots Ty} {entries : List (String × Json)} {f : F}
    {a : Ty f} (h : s.visitMap slots entries = .ok slots') (hempty : slots f = none)
    (hf : slots' f = some a) :
    ∃ json, entries.lookup (s.field f).name = some json ∧
      (s.field f).deserialize json = .ok a := by
  induction entries generalizing slots with
  | nil =>
    cases h
    rw [hempty] at hf
    cases hf
  | cons entry entries ih =>
    obtain ⟨key, json⟩ := entry
    obtain ⟨next, hstep, hrest⟩ := bind_eq_ok.mp h
    rcases cases_of_visitEntry hstep with ⟨rfl, hother⟩ | ⟨g, b, hname, _, hread, rfl⟩
    · rw [List.lookup_cons, beq_eq_false_iff_ne.mpr (hother f)]
      exact ih hrest hempty
    · by_cases hgf : f = g
      · subst hgf
        have hkept := visitMap_keeps hrest (Function.update_self f (some b) slots)
        rw [hf] at hkept
        cases hkept
        exact ⟨json, by rw [hname, List.lookup_cons, BEq.rfl], hread⟩
      · have hkey : (s.field f).name ≠ key := fun h => hgf (s.names_injective (h.trans hname.symm))
        rw [List.lookup_cons, beq_eq_false_iff_ne.mpr hkey]
        exact ih hrest (by rw [Function.update_of_ne hgf]; exact hempty)

theorem visitSeq_keeps {slots slots' : Slots Ty} {index : Nat} {fields : List F}
    {items : List Json} {f : F} (h : s.visitSeq slots index fields items = .ok slots')
    (hf : f ∉ fields) : slots' f = slots f := by
  induction fields generalizing slots index items with
  | nil =>
    cases items with
    | nil => cases h; rfl
    | cons item items => cases h
  | cons g fields ih =>
    rw [List.mem_cons, not_or] at hf
    cases items with
    | nil =>
      unfold visitSeq at h
      split at h
      · exact ih h hf.2
      · cases h
    | cons item items =>
      obtain ⟨b, _, hrest⟩ := bind_eq_ok.mp h
      rw [ih hrest hf.2, Function.update_of_ne hf.1]

theorem lookup_of_visitSeq {slots slots' : Slots Ty} {index : Nat} {fields : List F}
    {items : List Json} {f : F} {a : Ty f} (hnodup : fields.Nodup)
    (h : s.visitSeq slots index fields items = .ok slots') (hempty : slots f = none)
    (hf : slots' f = some a) :
    ∃ json, (fields.zip items).lookup f = some json ∧ (s.field f).deserialize json = .ok a := by
  induction fields generalizing slots index items with
  | nil =>
    rw [visitSeq_keeps h List.not_mem_nil, hempty] at hf
    cases hf
  | cons g fields ih =>
    obtain ⟨hnew, hnodup⟩ := List.nodup_cons.mp hnodup
    cases items with
    | nil =>
      unfold visitSeq at h
      split at h
      · obtain ⟨json, hjson, _⟩ := ih hnodup h hempty
        rw [List.zip_nil_right] at hjson
        cases hjson
      · cases h
    | cons item items =>
      obtain ⟨b, hb, hrest⟩ := bind_eq_ok.mp h
      by_cases hgf : f = g
      · subst hgf
        rw [visitSeq_keeps hrest hnew, Function.update_self] at hf
        cases hf
        exact ⟨item, by simp, hb⟩
      · rw [List.zip_cons_cons, List.lookup_cons, beq_eq_false_iff_ne.mpr hgf]
        exact ih hnodup hrest (by rw [Function.update_of_ne hgf]; exact hempty)

/-- **A filled slot was read from the field's own member.** -/
theorem member_of_visit {json : Json} {slots : Slots Ty} {f : F} {a : Ty f}
    (h : s.visit json = .ok slots) (hf : slots f = some a) :
    ∃ v, s.member f json = some v ∧ (s.field f).deserialize v = .ok a := by
  cases json with
  | obj entries => exact lookup_of_visitMap h rfl hf
  | arr items => exact lookup_of_visitSeq s.nodup_fields h rfl hf
  | null | bool | number | str => cases h

/-! ### Exactly what is read -/

/-- The members of an object that name a field, repeated ones included. -/
def members (s : Struct F Ty) (f : F) (entries : List (String × Json)) : List Json :=
  (entries.filter fun entry => entry.1 = (s.field f).name).map Prod.snd

/-- What the JSON value gives for a field. -/
def given (s : Struct F Ty) (f : F) : Json → List Json
  | .obj entries => s.members f entries
  | .arr items => ((s.fields.zip items).lookup f).toList
  | _ => []

/-- An object, or an array with no more items than there are fields. -/
def Shaped (s : Struct F Ty) : Json → Prop
  | .obj _ => True
  | .arr items => items.length ≤ s.fields.length
  | _ => False

/-- The slot of a field goes from `old` to `new`. -/
def Fills (s : Struct F Ty) (f : F) (old : Option (Ty f)) : List Json → Option (Ty f) → Prop
  | [], new => new = old
  | [json], new => old = none ∧ ∃ a, (s.field f).deserialize json = .ok a ∧ new = some a
  | _, _ => False

/-- The value of a field: what it is given once, or its default. -/
def Reads (s : Struct F Ty) (f : F) : List Json → Ty f → Prop
  | [], a => (s.field f).default = some a
  | [json], a => (s.field f).deserialize json = .ok a
  | _, _ => False

omit [DecidableEq F] in
theorem members_cons {f : F} {key : String} {json : Json} {entries : List (String × Json)} :
    s.members f ((key, json) :: entries) =
      if key = (s.field f).name then json :: s.members f entries else s.members f entries := by
  unfold members
  by_cases hkey : key = (s.field f).name <;> simp [hkey]

omit [DecidableEq F] in
theorem fills_some {f : F} {a : Ty f} {jsons : List Json} {new : Option (Ty f)} :
    s.Fills f (some a) jsons new ↔ jsons = [] ∧ new = some a := by
  match jsons with
  | [] => simp [Fills]
  | [_] => simp [Fills]
  | _ :: _ :: _ => simp [Fills]

omit [DecidableEq F] in
/-- A member in front is read first, into an empty slot. -/
theorem fills_cons {f : F} {old new : Option (Ty f)} {json : Json} {jsons : List Json} :
    s.Fills f old (json :: jsons) new ↔
      old = none ∧ ∃ a, (s.field f).deserialize json = .ok a ∧ s.Fills f (some a) jsons new := by
  simp only [fills_some]
  cases jsons with
  | nil => simp [Fills]
  | cons _ _ => simp [Fills]

omit [DecidableEq F] in
/-- What is given twice is not read, so the order does not matter. -/
theorem reads_perm {f : F} {jsons jsons' : List Json} (h : jsons.Perm jsons') {a : Ty f} :
    s.Reads f jsons a ↔ s.Reads f jsons' a := by
  match jsons with
  | [] => rw [List.nil_perm.mp h]
  | [json] => rw [List.singleton_perm.mp h]
  | _ :: _ :: _ =>
    obtain ⟨_, _, _, rfl⟩ : ∃ x y rest, jsons' = x :: y :: rest := by
      match jsons' with
      | [] => cases List.perm_nil.mp h
      | [_] => cases List.perm_singleton.mp h
      | x :: y :: rest => exact ⟨x, y, rest, rfl⟩
    exact Iff.rfl

omit [DecidableEq F] in
theorem members_perm {f : F} {entries entries' : List (String × Json)}
    (h : entries.Perm entries') : (s.members f entries).Perm (s.members f entries') :=
  (h.filter _).map _

/-- An entry that is named like a field. -/
def known (s : Struct F Ty) (entry : String × Json) : Bool := (s.fieldNamed entry.1).isSome

omit [DecidableEq F] in
theorem members_filter_known (f : F) (entries : List (String × Json)) :
    s.members f (entries.filter s.known) = s.members f entries := by
  rw [members, members, List.filter_filter]
  congr 1
  refine List.filter_congr fun entry _ => ?_
  by_cases hname : entry.1 = (s.field f).name
  · simp [hname, known, fieldNamed_name]
  · simp [hname]

/-- The entry at the front of an object, and the rest of it behind that. -/
theorem visitEntry_eq_ok {slots next : Slots Ty} {key : String} {json : Json} {f : F}
    (hkey : key = (s.field f).name) :
    s.visitEntry slots (key, json) = .ok next ↔
      slots f = none ∧ ∃ a, (s.field f).deserialize json = .ok a ∧
        Function.update slots f (some a) = next := by
  subst hkey
  simp only [visitEntry, fieldNamed_name]
  cases hslot : slots f with
  | some a => simp
  | none => simp [map_eq_ok]

theorem visitEntry_other {slots : Slots Ty} {key : String} {json : Json}
    (hkey : ∀ f, key ≠ (s.field f).name) : s.visitEntry slots (key, json) = .ok slots := by
  unfold visitEntry
  cases hnamed : s.fieldNamed key with
  | none => rfl
  | some f => exact absurd (name_of_fieldNamed hnamed).symm (hkey f)

/-- **An object fills each slot from the members of its field**, whatever
stands between them. -/
theorem visitMap_eq_ok {slots slots' : Slots Ty} {entries : List (String × Json)} :
    s.visitMap slots entries = .ok slots' ↔
      ∀ f, s.Fills f (slots f) (s.members f entries) (slots' f) := by
  induction entries generalizing slots with
  | nil =>
    have hempty : s.visitMap slots [] = .ok slots' ↔ slots' = slots :=
      ⟨fun h => (Except.ok.inj h).symm, fun h => h ▸ rfl⟩
    exact hempty.trans funext_iff
  | cons entry entries ih =>
    obtain ⟨key, json⟩ := entry
    have hcons : s.visitMap slots ((key, json) :: entries) =
        s.visitEntry slots (key, json) >>= fun next => s.visitMap next entries := rfl
    rw [hcons]
    by_cases hkey : ∃ f, key = (s.field f).name
    · obtain ⟨f, hf⟩ := hkey
      have hother : ∀ g, g ≠ f → s.members g ((key, json) :: entries) = s.members g entries := by
        intro g hg
        rw [members_cons, if_neg fun h => hg (s.names_injective (h.symm.trans hf))]
      have hself : s.members f ((key, json) :: entries) = json :: s.members f entries := by
        rw [members_cons, if_pos hf]
      simp only [bind_eq_ok, visitEntry_eq_ok hf, ih]
      constructor
      · rintro ⟨_, ⟨hempty, a, hread, rfl⟩, hrest⟩ g
        have hg := hrest g
        by_cases hgf : g = f
        · subst hgf
          rw [Function.update_self] at hg
          rw [hself]
          exact fills_cons.mpr ⟨hempty, a, hread, hg⟩
        · rw [Function.update_of_ne hgf] at hg
          rwa [hother g hgf]
      · intro h
        have hf' := h f
        rw [hself] at hf'
        obtain ⟨hempty, a, hread, hfills⟩ := fills_cons.mp hf'
        refine ⟨_, ⟨hempty, a, hread, rfl⟩, fun g => ?_⟩
        by_cases hgf : g = f
        · subst hgf
          rwa [Function.update_self]
        · rw [Function.update_of_ne hgf, ← hother g hgf]
          exact h g
    · rw [not_exists] at hkey
      rw [visitEntry_other hkey]
      have hsame : ∀ f, s.members f ((key, json) :: entries) = s.members f entries := fun f => by
        rw [members_cons, if_neg (hkey f)]
      simp only [hsame]
      exact ih

theorem lookup_zip_cons {f g : F} {fields : List F} {item : Json} {items : List Json} :
    ((f :: fields).zip (item :: items)).lookup g =
      if g = f then some item else (fields.zip items).lookup g := by
  rw [List.zip_cons_cons, List.lookup_cons]
  by_cases hgf : g = f
  · simp [hgf]
  · rw [beq_eq_false_iff_ne.mpr hgf, if_neg hgf]

theorem lookup_zip_eq_none {f : F} {fields : List F} {items : List Json} (h : f ∉ fields) :
    (fields.zip items).lookup f = none := by
  rw [List.lookup_eq_none_iff]
  intro entry hentry
  have hmem : entry.1 ∈ fields := (List.of_mem_zip hentry).1
  simpa using fun heq : f = entry.1 => h (heq ▸ hmem)

/-- **An array fills the slots of as many fields as it has items**; the others
need a default. -/
theorem visitSeq_eq_ok {slots slots' : Slots Ty} {index : Nat} {fields : List F}
    {items : List Json} (hnodup : fields.Nodup) (hempty : ∀ f ∈ fields, slots f = none) :
    s.visitSeq slots index fields items = .ok slots' ↔
      items.length ≤ fields.length ∧
        (∀ f ∈ fields.drop items.length, (s.field f).default.isSome) ∧
        ∀ f, s.Fills f (slots f) ((fields.zip items).lookup f).toList (slots' f) := by
  induction fields generalizing slots index items with
  | nil =>
    cases items with
    | nil =>
      have hsame : s.visitSeq slots index [] [] = .ok slots' ↔ slots' = slots :=
        ⟨fun h => (Except.ok.inj h).symm, fun h => h ▸ rfl⟩
      simp [hsame, Fills, funext_iff]
    | cons item items => simp [visitSeq]
  | cons f fields ih =>
    obtain ⟨hnew, hnodup⟩ := List.nodup_cons.mp hnodup
    obtain ⟨hf, hempty⟩ := List.forall_mem_cons.mp hempty
    cases items with
    | nil =>
      have hrest := @ih slots (index + 1) [] hnodup hempty
      simp only [List.length_nil, List.drop_zero, List.zip_nil_right, List.lookup_nil] at hrest ⊢
      simp only [visitSeq, List.forall_mem_cons]
      cases hdefault : (s.field f).default.isSome with
      | true =>
        rw [if_pos rfl, hrest]
        simp
      | false => simp
    | cons item items =>
      simp only [visitSeq, bind_eq_ok, List.length_cons, List.drop_succ_cons,
        Nat.add_le_add_iff_right]
      constructor
      · rintro ⟨a, hread, hrest⟩
        have hempty' : ∀ g ∈ fields, Function.update slots f (some a) g = none := by
          intro g hg
          rw [Function.update_of_ne (ne_of_mem_of_not_mem hg hnew)]
          exact hempty g hg
        obtain ⟨hlength, hdefaults, hfills⟩ := (ih hnodup hempty').mp hrest
        refine ⟨hlength, hdefaults, fun g => ?_⟩
        have hg := hfills g
        rw [lookup_zip_cons]
        by_cases hgf : g = f
        · subst hgf
          rw [Function.update_self, fills_some] at hg
          rw [if_pos rfl]
          exact ⟨hf, a, hread, hg.2⟩
        · rwa [if_neg hgf, ← Function.update_of_ne hgf (some a) slots]
      · rintro ⟨hlength, hdefaults, hfills⟩
        have hfirst := hfills f
        rw [lookup_zip_cons, if_pos rfl] at hfirst
        obtain ⟨-, a, hread, hnext⟩ := hfirst
        have hempty' : ∀ g ∈ fields, Function.update slots f (some a) g = none := by
          intro g hg
          rw [Function.update_of_ne (ne_of_mem_of_not_mem hg hnew)]
          exact hempty g hg
        refine ⟨a, hread, (ih hnodup hempty').mpr ⟨hlength, hdefaults, fun g => ?_⟩⟩
        have hg := hfills g
        rw [lookup_zip_cons] at hg
        by_cases hgf : g = f
        · subst hgf
          rw [Function.update_self, lookup_zip_eq_none hnew, hnext]
          exact rfl
        · rwa [if_neg hgf, ← Function.update_of_ne hgf (some a) slots] at hg

/-- The items of an array under the names of the fields. -/
def entriesOf (s : Struct F Ty) (fields : List F) (items : List Json) : List (String × Json) :=
  (fields.map fun f => (s.field f).name).zip items

theorem members_entriesOf {f : F} {fields : List F} {items : List Json} (hnodup : fields.Nodup) :
    s.members f (s.entriesOf fields items) = ((fields.zip items).lookup f).toList := by
  induction fields generalizing items with
  | nil => rfl
  | cons g fields ih =>
    obtain ⟨hnew, hnodup⟩ := List.nodup_cons.mp hnodup
    cases items with
    | nil => rfl
    | cons item items =>
      have hcons : s.entriesOf (g :: fields) (item :: items) =
          ((s.field g).name, item) :: s.entriesOf fields items := rfl
      rw [hcons, members_cons, lookup_zip_cons, ih hnodup]
      by_cases hfg : f = g
      · subst hfg
        simp [lookup_zip_eq_none hnew]
      · rw [if_neg hfg, if_neg fun hname => hfg (s.names_injective hname.symm)]

omit [DecidableEq F] in
theorem finish_eq_ok {slots : Slots Ty} {f : F} {jsons : List Json} {a : Ty f}
    (h : s.Fills f none jsons (slots f)) : s.finish slots f = .ok a ↔ s.Reads f jsons a := by
  unfold finish
  match jsons with
  | [] =>
    rw [h]
    cases hdefault : (s.field f).default <;> simp [Reads, hdefault]
  | [json] =>
    obtain ⟨-, b, hread, hb⟩ := h
    rw [hb]
    simp [Reads, hread]

omit [DecidableEq F] in
theorem fills_of_reads {f : F} {jsons : List Json} {a : Ty f} (h : s.Reads f jsons a) :
    s.Fills f none jsons (if jsons.isEmpty then none else some a) := by
  match jsons with
  | [] => rfl
  | [json] => exact ⟨rfl, a, h, rfl⟩

theorem lookup_zip_drop {f : F} {fields : List F} {items : List Json} (hnodup : fields.Nodup)
    (hf : f ∈ fields.drop items.length) : (fields.zip items).lookup f = none := by
  induction fields generalizing items with
  | nil => rfl
  | cons g fields ih =>
    obtain ⟨hnew, hnodup⟩ := List.nodup_cons.mp hnodup
    cases items with
    | nil => rfl
    | cons item items =>
      rw [List.length_cons, List.drop_succ_cons] at hf
      rw [lookup_zip_cons, if_neg (ne_of_mem_of_not_mem (List.mem_of_mem_drop hf) hnew)]
      exact ih hnodup hf

/-- A field behind the last item has nothing but its default. -/
theorem default_of_reads {f : F} {items : List Json} {a : Ty f}
    (hf : f ∈ s.fields.drop items.length) (h : s.Reads f (s.given f (.arr items)) a) :
    (s.field f).default.isSome := by
  rw [given, lookup_zip_drop s.nodup_fields hf] at h
  have hdefault : (s.field f).default = some a := h
  rw [hdefault]
  rfl

/-- **What a struct is read from**: a value of its shape that gives each field
once, or not at all where the field has a default. -/
theorem visit_finish_iff {json : Json} {value : ∀ f, Ty f} :
    (∃ slots, s.visit json = .ok slots ∧ ∀ f, s.finish slots f = .ok (value f)) ↔
      s.Shaped json ∧ ∀ f, s.Reads f (s.given f json) (value f) := by
  have hvisit : ∀ slots, s.visit json = .ok slots ↔
      s.Shaped json ∧ (∀ f, s.Fills f none (s.given f json) (slots f)) ∧
        ∀ items, json = .arr items →
          ∀ f ∈ s.fields.drop items.length, (s.field f).default.isSome := by
    intro slots
    cases json with
    | obj entries => simpa [visit, Shaped, given] using visitMap_eq_ok
    | arr items =>
      simp only [visit, Shaped, given, Json.arr.injEq, forall_eq']
      rw [visitSeq_eq_ok s.nodup_fields fun _ _ => rfl]
      exact and_congr_right fun _ => and_comm
    | null | bool | number | str => simp [visit, Shaped]
  constructor
  · rintro ⟨slots, hslots, hfinish⟩
    obtain ⟨hshaped, hfills, -⟩ := (hvisit slots).mp hslots
    exact ⟨hshaped, fun f => (finish_eq_ok (hfills f)).mp (hfinish f)⟩
  · rintro ⟨hshaped, hreads⟩
    have hfills := fun f => fills_of_reads (hreads f)
    refine ⟨_, (hvisit fun f => if (s.given f json).isEmpty then none else some (value f)).mpr
      ⟨hshaped, hfills, ?_⟩, fun f => (finish_eq_ok (hfills f)).mpr (hreads f)⟩
    rintro items rfl f hf
    exact default_of_reads hf (hreads f)

end Struct
end UnichainBuilder.Lib.Serde
