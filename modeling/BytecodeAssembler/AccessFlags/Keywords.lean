import BytecodeAssembler.Fault.Basic

/-!
# Access flags from keywords

A list of keywords gives the union of their bits, and the first keyword
that the carrier does not know is a fault.
-/

namespace BytecodeAssembler

/-- The bit that a keyword sets. -/
def Carrier.bit? (c : Carrier) (keyword : String) : Option UInt16 :=
  (c.keywords.find? fun entry => entry.1 == keyword).map Prod.snd

/-- **The flags that keywords set.** -/
def AccessFlags.ofKeywords {c : Carrier} (keywords : List String) :
    Except Fault (AccessFlags c) :=
  keywords.foldlM (fun flags keyword =>
    match c.bit? keyword with
    | some bit => .ok (flags.union ⟨bit⟩)
    | none => .error (.unknownFlag c keyword)) AccessFlags.empty

end BytecodeAssembler
