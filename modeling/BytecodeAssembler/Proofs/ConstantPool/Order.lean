import BytecodeAssembler.Proofs.ConstantPool.Listing
import BytecodeAssembler.Proofs.ConstantPool.Run
import Mathlib.Algebra.BigOperators.Group.List.Basic

/-!
# The order of registration

A constant brings along what it refers to, unless that is there already. So
the order in which constants are added decides where the entries of a pool
stand, and two orders can give two quite different pools. It does not decide
**which** entries there are: those are the constants added and all that can be
reached from them, each of them once. Since the entries are the same up to
their order, so are the indices they take together, and with them the question
whether there are enough (`addAll_order_irrelevant`).
-/

namespace BytecodeAssembler

/-- The order of constants is irrelevant for the indices they take. -/
theorem totalWidth_perm {cs ds : List Constant} (h : cs.Perm ds) :
    totalWidth cs = totalWidth ds :=
  (h.map Constant.width).sum_eq

namespace ConstantPool

variable {p q p' q' : ConstantPool} {c : Constant}

/-- **Entries that are the same stand in some other order**, since no constant
is entered twice. -/
theorem Reachable.perm_entries (hp : p.Reachable) (hq : q.Reachable)
    (h : ∀ c, c ∈ p.entries ↔ c ∈ q.entries) : p.entries.toList.Perm q.entries.toList := by
  rw [List.perm_ext_iff_of_nodup hp.wellFormed.indexed.nodup hq.wellFormed.indexed.nodup]
  intro c
  rw [Array.mem_toList_iff, Array.mem_toList_iff]
  exact h c

/-- Of two open pools with the same entries, both can be finalized or none. -/
theorem exists_finalize_of_perm (h : p.entries.toList.Perm q.entries.toList)
    (hp : p.numbering = none) (hq : q.numbering = none) :
    (∃ p', p.finalize = .ok p') ↔ ∃ q', q.finalize = .ok q' := by
  rw [exists_finalize_iff, exists_finalize_iff, totalWidth_perm h, hp, hq]

/-- Finalized pools with the same entries have the same count. -/
theorem Reachable.count_of_perm (h : p.entries.toList.Perm q.entries.toList)
    (hp : p.Reachable) (hq : q.Reachable) {n m : Numbering} (hn : p.numbering = some n)
    (hm : q.numbering = some m) : ∃ total, p.count = .ok total ∧ q.count = .ok total := by
  obtain ⟨total, htotal, hsum, -⟩ := hp.exists_count hn
  obtain ⟨total', htotal', hsum', -⟩ := hq.exists_count hm
  rw [totalWidth_perm h, ← hsum'] at hsum
  exact ⟨total, htotal, UInt16.toNat_inj.1 hsum ▸ htotal'⟩

/-- **The order of registration does not decide whether a class fits.** Two
lists of the same constants, in any order and with any repetitions, are added
to two new pools. Both pools have exactly what the constants lead to as
entries, and equally many of them. Either both can be finalized or none, and
if they are, they have the same count and an index for the same constants. -/
theorem addAll_order_irrelevant (cs ds : List Constant) (h : ∀ c, c ∈ cs ↔ c ∈ ds) :
    ∃ p q, empty.addAll cs = .ok p ∧ empty.addAll ds = .ok q
      ∧ (∀ c, c ∈ p.entries ↔ Constant.Registered cs c)
      ∧ (∀ c, c ∈ p.entries ↔ c ∈ q.entries) ∧ p.size = q.size
      ∧ ((∃ p', p.finalize = .ok p') ↔ ∃ q', q.finalize = .ok q')
      ∧ ∀ p' q', p.finalize = .ok p' → q.finalize = .ok q' →
        (∃ total, p'.count = .ok total ∧ q'.count = .ok total)
          ∧ ∀ c, (∃ i, p'.indexOf c = .ok i) ↔ ∃ i, q'.indexOf c = .ok i := by
  obtain ⟨p, hp, hpreach, hpopen, hpmem⟩ := addAll_empty cs
  obtain ⟨q, hq, hqreach, hqopen, hqmem⟩ := addAll_empty ds
  have hsame : ∀ c, c ∈ p.entries ↔ c ∈ q.entries := by
    intro c
    rw [hpmem, hqmem]
    exact exists_congr fun d => and_congr_left fun _ => h d
  have hperm := hpreach.perm_entries hqreach hsame
  refine ⟨p, q, hp, hq, hpmem, hsame, hperm.length_eq,
    exists_finalize_of_perm hperm hpopen hqopen, fun p' q' hp' hq' => ?_⟩
  obtain ⟨n, hn⟩ := exists_numbering_of_finalize hp'
  obtain ⟨m, hm⟩ := exists_numbering_of_finalize hq'
  rw [← entries_of_finalize hp', ← entries_of_finalize hq'] at hperm hsame
  have hpreach := hpreach.finalize hp'
  have hqreach := hqreach.finalize hq'
  refine ⟨hpreach.count_of_perm hperm hqreach hn hm, fun c => ?_⟩
  rw [(hpreach.numbered hn).registered, (hqreach.numbered hm).registered]
  exact hsame c

/-- A field and its class, in this order. -/
def fieldFirst : List Constant := [.fieldRef ⟨"A", "f", "J"⟩, .classRef "A"]

/-- The class before the field, and once more after it. -/
def classFirst : List Constant := [.classRef "A", .fieldRef ⟨"A", "f", "J"⟩, .classRef "A"]

theorem lists_fieldFirst : Lists fieldFirst [.fieldRef ⟨"A", "f", "J"⟩, .classRef "A", .utf8 "A",
    .nameAndType "f" "J", .utf8 "f", .utf8 "J"] :=
  ⟨by decide, by decide⟩

theorem lists_classFirst : Lists classFirst [.classRef "A", .utf8 "A",
    .fieldRef ⟨"A", "f", "J"⟩, .nameAndType "f" "J", .utf8 "f", .utf8 "J"] :=
  ⟨by decide, by decide⟩

/-- The entries of the two pools stand in different orders, and yet both pools
can be finalized and have the same count. -/
theorem addAll_order_irrelevant_classFirst : (∀ c, c ∈ fieldFirst ↔ c ∈ classFirst)
    ∧ ∃ p q p' q', empty.addAll fieldFirst = .ok p ∧ empty.addAll classFirst = .ok q
      ∧ p.entries ≠ q.entries ∧ p.size = q.size ∧ p.finalize = .ok p' ∧ q.finalize = .ok q'
      ∧ ∃ total, p'.count = .ok total ∧ q'.count = .ok total := by
  have hmembers : ∀ c, c ∈ fieldFirst ↔ c ∈ classFirst := by
    intro c
    simp [fieldFirst, classFirst, or_comm]
  obtain ⟨p, q, hp, hq, -, -, hsize, -, hcounts⟩ :=
    addAll_order_irrelevant fieldFirst classFirst hmembers
  cases lists_fieldFirst.addAll.symm.trans hp
  cases lists_classFirst.addAll.symm.trans hq
  have hp' := lists_fieldFirst.finalize
  have hq' := lists_classFirst.finalize
  exact ⟨hmembers, _, _, _, _, hp, hq, by decide, hsize, hp', hq', (hcounts _ _ hp' hq').1⟩

end ConstantPool

end BytecodeAssembler
