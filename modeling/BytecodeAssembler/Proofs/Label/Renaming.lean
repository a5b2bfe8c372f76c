import BytecodeAssembler.Instruction.Resolution
import BytecodeAssembler.Proofs.Body.LabelNames
import Mathlib.Logic.Equiv.Basic

/-!
# Labels under other names

A label is known by the number of its slot, and its name only leads to that
number. So when every label is called by another name from the start, nothing
changes but the names: the same labels are made, in the same order and with the
same standing. There is one thing to look out for. A name of digits goes in
front of the instruction before it, and a place in a frame is an offset if it
reads as an integer, so a **renaming** leaves such names alone.
-/

namespace BytecodeAssembler

/-! ## Renamings -/

/-- **A name that is read as a number** in some place. -/
def Label.ReadsAsNumber (name : String) : Prop :=
  Label.isNumeric name = true ∨ (Text.readInt64 10 name.toList).isOk = true

instance (name : String) : Decidable (Label.ReadsAsNumber name) :=
  inferInstanceAs (Decidable (_ ∨ _))

/-- **A renaming of labels.** Different names stay different, and names that
read as numbers are left alone. -/
structure LabelRenaming where
  /-- The new name. -/
  rename : String → String
  injective : Function.Injective rename
  fixed : ∀ name, Label.ReadsAsNumber name → rename name = name

namespace LabelRenaming

variable (r : LabelRenaming) {name : String}

/-- No other name becomes a number. -/
theorem readsAsNumber_rename_iff :
    Label.ReadsAsNumber (r.rename name) ↔ Label.ReadsAsNumber name := by
  constructor
  · intro h
    have hsame : r.rename name = name := r.injective (r.fixed _ h)
    rwa [hsame] at h
  · intro h
    rwa [r.fixed name h]

theorem isNumeric_rename (name : String) :
    Label.isNumeric (r.rename name) = Label.isNumeric name := by
  by_cases h : Label.ReadsAsNumber name
  · rw [r.fixed name h]
  · rw [Bool.eq_false_iff.2 (not_or.1 h).1,
      Bool.eq_false_iff.2 (not_or.1 (mt r.readsAsNumber_rename_iff.1 h)).1]

theorem rename_of_readInt64 {value : Int64} (h : Text.readInt64 10 name.toList = .ok value) :
    r.rename name = name := by
  refine r.fixed name (.inr ?_)
  rw [h]
  rfl

theorem readInt64_rename_of_error {fault : Text.IntegerFault}
    (h : Text.readInt64 10 name.toList = .error fault) :
    ∃ fault', Text.readInt64 10 (r.rename name).toList = .error fault' := by
  cases hread : Text.readInt64 10 (r.rename name).toList with
  | error fault' => exact ⟨fault', rfl⟩
  | ok value =>
    have hsame : r.rename name = name := r.injective (r.rename_of_readInt64 hread)
    rw [hsame, h] at hread
    cases hread

/-- **Two names exchanged.** -/
def exchange (a b : String) (ha : ¬ Label.ReadsAsNumber a) (hb : ¬ Label.ReadsAsNumber b) :
    LabelRenaming where
  rename := Equiv.swap a b
  injective := (Equiv.swap a b).injective
  fixed _ h :=
    Equiv.swap_apply_of_ne_of_ne (fun heq => ha (heq ▸ h)) fun heq => hb (heq ▸ h)

end LabelRenaming

/-! ## Tables -/

namespace LabelTable

variable {r : LabelRenaming} {t u : LabelTable}

/-- **The same labels under new names**: they have the same standing, and the
new name of a label leads to it. -/
structure Renames (r : LabelRenaming) (t u : LabelTable) : Prop where
  standing : t.SameStanding u
  names : ∀ name, u.names[r.rename name]? = t.names[name]?

namespace Renames

theorem empty (r : LabelRenaming) : Renames r empty empty where
  standing := .refl _
  names _ := by simp [LabelTable.empty]

theorem fresh (h : t.Renames r u) : u.fresh.1 = t.fresh.1 ∧ t.fresh.2.Renames r u.fresh.2 := by
  refine ⟨congrArg Label.mk h.standing.size_eq, h.standing.push rfl _ _, h.names⟩

/-- **The first mention of a name makes the same label.** -/
theorem mention (h : t.Renames r u) (name : String) :
    (u.mention (r.rename name)).1 = (t.mention name).1
      ∧ (t.mention name).2.Renames r (u.mention (r.rename name)).2 := by
  unfold LabelTable.mention
  rw [h.names name, h.standing.size_eq]
  cases t.names[name]? with
  | some label => exact ⟨rfl, h⟩
  | none =>
    refine ⟨rfl, h.standing.push (by rfl) _ _, fun other => ?_⟩
    show (u.names.insert (r.rename name) _)[r.rename other]? = (t.names.insert name _)[other]?
    rw [Std.HashMap.getElem?_insert, Std.HashMap.getElem?_insert, h.names other]
    congr 1
    rw [beq_iff_eq, beq_iff_eq, r.injective.eq_iff]

theorem markPlaced (h : t.Renames r u) (label : Label) :
    (t.markPlaced label).Renames r (u.markPlaced label) :=
  ⟨h.standing.markPlaced label, h.names⟩

theorem mentionEach (names : List String) (rev : List Label) (h : t.Renames r u) :
    (LabelTable.mentionEach (names.map r.rename) rev u).1 = (LabelTable.mentionEach names rev t).1
      ∧ (LabelTable.mentionEach names rev t).2.Renames r
        (LabelTable.mentionEach (names.map r.rename) rev u).2 := by
  induction names generalizing rev t u with
  | nil => exact ⟨rfl, h⟩
  | cons name names ih =>
    obtain ⟨hlabel, hrest⟩ := h.mention name
    unfold LabelTable.mentionEach
    rw [List.map_cons]
    dsimp only
    rw [hlabel]
    exact ih _ hrest

end Renames

end LabelTable

/-- **Two resolutions alike**: they have the same outcome, and their tables
have the same labels. -/
def ResolvesAlike {α : Type} (r : LabelRenaming) (x y : Except Fault α × LabelTable) : Prop :=
  SameOutcome x.1 y.1 ∧ x.2.Renames r y.2

/-! ## Arguments -/

namespace Argument

variable {r : LabelRenaming} {t u : LabelTable}

theorem lookupPairs_renames (pairs : List (Int64 × String)) (rev : List (Int32 × Label))
    (h : t.Renames r u) :
    (lookupPairs (pairs.map fun pair => (pair.1, r.rename pair.2)) rev u).1
        = (lookupPairs pairs rev t).1
      ∧ (lookupPairs pairs rev t).2.Renames r
        (lookupPairs (pairs.map fun pair => (pair.1, r.rename pair.2)) rev u).2 := by
  induction pairs generalizing rev t u with
  | nil => exact ⟨rfl, h⟩
  | cons pair pairs ih =>
    unfold lookupPairs
    rw [List.map_cons]
    dsimp only
    cases narrowS4 "lookupswitch key" pair.1 with
    | error fault => exact ⟨rfl, h⟩
    | ok key =>
      obtain ⟨hlabel, hrest⟩ := h.mention pair.2
      dsimp only
      rw [hlabel]
      exact ih _ hrest

/-- Whether a word is a label to the opcode. -/
def isJump (opcode : Opcode) : Bool :=
  opcode.kind = .branch || opcode.kind = .branchWide

/-- **The argument with its labels renamed.** A word is a label only to the
opcode of a jump; the targets of a switch always are. -/
def renameLabels (r : LabelRenaming) (jump : Bool) : Argument → Argument
  | .word name => .word (if jump then r.rename name else name)
  | .tableSwitch low high targets fallback =>
    .tableSwitch low high (targets.map r.rename) (r.rename fallback)
  | .lookupSwitch pairs fallback =>
    .lookupSwitch (pairs.map fun pair => (pair.1, r.rename pair.2)) (r.rename fallback)
  | argument => argument

/-- Whether the opcode takes labels from the argument. -/
def givesLabels (opcode : Opcode) : Argument → Bool
  | .word _ => isJump opcode
  | .tableSwitch .. => opcode.kind = .tableSwitch
  | .lookupSwitch .. => opcode.kind = .lookupSwitch
  | _ => false

/-- An argument that gives no labels leaves the table alone. -/
theorem resolve_eq_plain {argument : Argument} {opcode : Opcode}
    (h : argument.givesLabels opcode = false) (labels : LabelTable) :
    argument.resolve opcode labels = (argument.resolvePlain opcode, labels) := by
  unfold resolve
  split
  next hkind => simp [givesLabels, isJump, hkind] at h
  next hkind => simp [givesLabels, isJump, hkind] at h
  next hkind => simp [givesLabels, hkind] at h
  next hkind => simp [givesLabels, hkind] at h
  next => rfl

theorem resolvePlain_tableSwitch (opcode : Opcode) (low : Int64) (high : Option Int64)
    (targets : List String) (fallback : String) :
    (tableSwitch low high targets fallback).resolvePlain opcode
      = .error (.argumentShape opcode.mnemonic (tableSwitch low high targets fallback)) := by
  unfold resolvePlain
  cases opcode.kind <;> rfl

theorem resolvePlain_lookupSwitch (opcode : Opcode) (pairs : List (Int64 × String))
    (fallback : String) :
    (lookupSwitch pairs fallback).resolvePlain opcode
      = .error (.argumentShape opcode.mnemonic (lookupSwitch pairs fallback)) := by
  unfold resolvePlain
  cases opcode.kind <;> rfl

/-- Without labels, only the outcomes are left to compare. -/
theorem resolvesAlike_of_plain (h : t.Renames r u) {opcode : Opcode} {argument argument' : Argument}
    (hlabels : argument.givesLabels opcode = false)
    (hlabels' : argument'.givesLabels opcode = false)
    (hsame : SameOutcome (argument.resolvePlain opcode) (argument'.resolvePlain opcode)) :
    ResolvesAlike r (argument.resolve opcode t) (argument'.resolve opcode u) := by
  rw [resolve_eq_plain hlabels, resolve_eq_plain hlabels']
  exact ⟨hsame, h⟩

theorem resolve_jump {opcode : Opcode} (hjump : isJump opcode = true) (name : String)
    (labels : LabelTable) :
    (word name).resolve opcode labels
      = (.ok (.branch (labels.mention name).1), (labels.mention name).2) := by
  unfold isJump at hjump
  unfold resolve
  simp only [Bool.or_eq_true, decide_eq_true_eq] at hjump
  rcases hjump with hkind | hkind <;> rw [hkind]

theorem resolvesAlike_word (h : t.Renames r u) (opcode : Opcode) (name : String) :
    ResolvesAlike r ((word name).resolve opcode t)
      (((word name).renameLabels r (isJump opcode)).resolve opcode u) := by
  rw [renameLabels]
  cases hjump : isJump opcode with
  | true =>
    obtain ⟨hlabel, hlater⟩ := h.mention name
    rw [if_pos rfl, resolve_jump hjump, resolve_jump hjump, hlabel]
    exact ⟨.refl _, hlater⟩
  | false =>
    rw [if_neg Bool.false_ne_true]
    exact resolvesAlike_of_plain h hjump hjump (.refl _)

theorem resolvesAlike_tableSwitch (h : t.Renames r u) (opcode : Opcode) (low : Int64)
    (high : Option Int64) (targets : List String) (fallback : String) :
    ResolvesAlike r ((tableSwitch low high targets fallback).resolve opcode t)
      ((tableSwitch low high (targets.map r.rename) (r.rename fallback)).resolve opcode u) := by
  by_cases hkind : opcode.kind = .tableSwitch
  · simp only [resolve, hkind, List.length_map]
    cases tableLow low high targets.length with
    | error fault => exact ⟨.refl _, h⟩
    | ok low =>
      obtain ⟨hfallback, hlater⟩ := h.mention fallback
      obtain ⟨htargets, hlast⟩ := hlater.mentionEach targets []
      dsimp only [LabelTable.mentionAll]
      rw [hfallback, htargets]
      exact ⟨.refl _, hlast⟩
  · refine resolvesAlike_of_plain h (decide_eq_false hkind) (decide_eq_false hkind) ?_
    rw [resolvePlain_tableSwitch, resolvePlain_tableSwitch]
    exact .error rfl

theorem resolvesAlike_lookupSwitch (h : t.Renames r u) (opcode : Opcode)
    (pairs : List (Int64 × String)) (fallback : String) :
    ResolvesAlike r ((lookupSwitch pairs fallback).resolve opcode t)
      ((lookupSwitch (pairs.map fun pair => (pair.1, r.rename pair.2))
        (r.rename fallback)).resolve opcode u) := by
  by_cases hkind : opcode.kind = .lookupSwitch
  · obtain ⟨hpairs, hlater⟩ := lookupPairs_renames pairs [] h
    simp only [resolve, hkind]
    generalize lookupPairs pairs [] t = x at hpairs hlater ⊢
    generalize lookupPairs (pairs.map fun pair => (pair.1, r.rename pair.2)) [] u = y
      at hpairs hlater ⊢
    obtain ⟨outcome, labels⟩ := x
    obtain ⟨outcome', labels'⟩ := y
    obtain rfl : outcome' = outcome := hpairs
    cases outcome' with
    | error fault => exact ⟨.refl _, hlater⟩
    | ok result =>
      obtain ⟨hfallback, hlast⟩ := hlater.mention fallback
      dsimp only at hfallback hlast ⊢
      rw [hfallback]
      exact ⟨.refl _, hlast⟩
  · refine resolvesAlike_of_plain h (decide_eq_false hkind) (decide_eq_false hkind) ?_
    rw [resolvePlain_lookupSwitch, resolvePlain_lookupSwitch]
    exact .error rfl

/-- **An argument gives the same operand under new names.** -/
theorem resolvesAlike (h : t.Renames r u) (opcode : Opcode) (argument : Argument) :
    ResolvesAlike r (argument.resolve opcode t)
      ((argument.renameLabels r (isJump opcode)).resolve opcode u) := by
  cases argument with
  | word name => exact resolvesAlike_word h opcode name
  | tableSwitch low high targets fallback =>
    exact resolvesAlike_tableSwitch h opcode low high targets fallback
  | lookupSwitch pairs fallback => exact resolvesAlike_lookupSwitch h opcode pairs fallback
  | none | int | float | string | member | interfaceMember | intPair | wordInt =>
    exact resolvesAlike_of_plain h rfl rfl (.refl _)

end Argument

/-! ## Places in frames -/

namespace DeclaredType

variable {r : LabelRenaming} {t u : LabelTable}

/-- **A place is the same under a new name**, be it an offset or a label. -/
theorem resolvesAlike_readPlace (h : t.Renames r u) (text : String) (outOfRange : Int → Fault) :
    ResolvesAlike r (readPlace t text outOfRange)
      (readPlace u (r.rename text) outOfRange) := by
  unfold readPlace
  cases hread : Text.readInt64 10 text.toList with
  | ok value =>
    rw [r.rename_of_readInt64 hread, hread]
    dsimp only
    split
    next => exact ⟨.refl _, h⟩
    next => exact ⟨.refl _, h⟩
  | error fault =>
    obtain ⟨fault', hread'⟩ := r.readInt64_rename_of_error hread
    obtain ⟨hlabel, hlater⟩ := h.mention text
    rw [hread']
    dsimp only
    rw [hlabel]
    exact ⟨.refl _, hlater⟩

/-- **The argument of a type with its label renamed**: only an uninitialized
type is given a place. -/
def renamePlace (r : LabelRenaming) (name : String) (argument : Option String) : Option String :=
  if name = "Uninitialized" then argument.map r.rename else argument

/-- **A type is the same under new names.** -/
theorem resolvesAlike_ofName (h : t.Renames r u) (name : String) (argument : Option String) :
    ResolvesAlike r (ofName t name argument)
      (ofName u name (renamePlace r name argument)) := by
  unfold renamePlace
  by_cases hname : name = "Uninitialized"
  · subst hname
    rw [if_pos rfl]
    cases argument with
    | none => exact ⟨.refl _, h⟩
    | some text =>
      obtain ⟨hplace, hlater⟩ := resolvesAlike_readPlace h text .uninitializedOffset
      exact ⟨hplace.map _, hlater⟩
  · rw [if_neg hname]
    unfold ofName
    cases bare? name with
    | some type => cases argument <;> exact ⟨.refl _, h⟩
    | none =>
      dsimp only
      rw [if_neg hname, if_neg hname]
      split
      next => cases argument <;> exact ⟨.refl _, h⟩
      next => exact ⟨.refl _, h⟩

end DeclaredType

end BytecodeAssembler
