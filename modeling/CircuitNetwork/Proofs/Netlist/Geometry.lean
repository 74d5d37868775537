import CircuitNetwork.Proofs.Netlist.MemoryCell

namespace CircuitNetwork

/-!
# Geometries read back from generated cells

A cell writes each number of its specification in 32 digits, and a geometry is
read back from these digits. Numbers are thereby reduced modulo 2^32, and what
then has its highest digit set is refused as negative. A number comes back
unchanged exactly if it fits in a signed word of 32 bits.
-/

theorem ReadBack.eq_iff
    {asked : Int}
    {number : Nat}
    (read : ReadBack asked number) :
    (number : Int) = asked ↔ -0x80000000 ≤ asked ∧ asked < 0x80000000 := by
  obtain ⟨reduced, bounded⟩ := read
  omega

theorem exists_readBack_iff
    {asked : Int} :
    (∃ number, ReadBack asked number) ↔ asked % 0x100000000 < 0x80000000 := by
  constructor
  · rintro ⟨number, reduced, bounded⟩
    omega
  · intro bounded
    exact ⟨(asked % 0x100000000).toNat, by omega, by omega⟩

namespace MemorySpec

variable {spec : MemorySpec}

/-- Some geometry has the numbers of a specification if each of them can be read back. -/
theorem exists_numbers_iff
    (spec : MemorySpec) :
    (∃ geometry : Geometry, List.Forall₂ ReadBack spec.numbers geometry.numbers) ↔
      ∀ asked ∈ spec.numbers, ∃ number, ReadBack asked number := by
  simp only [numbers, Geometry.numbers, List.forall₂_cons, List.Forall₂.nil, and_true,
    List.forall_mem_cons, List.not_mem_nil, false_imp_iff, implies_true]
  constructor
  · rintro ⟨geometry, addressBits, width, size, offset, readPorts, writePorts⟩
    exact ⟨⟨_, addressBits⟩, ⟨_, width⟩, ⟨_, size⟩, ⟨_, offset⟩, ⟨_, readPorts⟩, ⟨_, writePorts⟩⟩
  · rintro ⟨⟨_, addressBits⟩, ⟨_, width⟩, ⟨_, size⟩, ⟨_, offset⟩, ⟨_, readPorts⟩, ⟨_, writePorts⟩⟩
    exact ⟨⟨_, _, _, _, _, _⟩, addressBits, width, size, offset, readPorts, writePorts⟩

/-- A geometry that is read back from a generated cell has the numbers of the specification, reduced
modulo 2^32. A number is the one that was asked for exactly if that one fits in a signed word of 32
bits. Reading succeeds exactly if no reduced number has its highest digit set. -/
theorem generated_geometry_numbers
    {cell : Cell}
    {nets after : Nets}
    (generated : spec.cell.run nets = .ok cell after) :
    (∀ geometry, Geometry.ofCell cell = .ok geometry →
        List.Forall₂
          (fun asked number =>
            ReadBack asked number ∧
              ((number : Int) = asked ↔ -0x80000000 ≤ asked ∧ asked < 0x80000000))
          spec.numbers geometry.numbers) ∧
      ((∃ geometry, Geometry.ofCell cell = .ok geometry) ↔
        ∀ asked ∈ spec.numbers, asked % 0x100000000 < 0x80000000) := by
  obtain ⟨memory, params, given, parameters⟩ := parameters_of_generated generated
  have read := geometry_ofCell_iff memory given parameters
  refine ⟨fun geometry accepted => ?_, ?_⟩
  · exact ((read geometry).mp accepted).imp fun asked number back => ⟨back, back.eq_iff⟩
  · simp only [read, exists_numbers_iff, exists_readBack_iff]

/-- Of four rows from address 2^32 + 1 on, the rows are read back as they are and the offset is not. -/
theorem generated_geometry_numbers_four_rows :
    let spec : MemorySpec := ⟨2, 4, 4, 0x100000001, 2, 0⟩
    ∃ cell after geometry,
      spec.cell.run {} = .ok cell after ∧ Geometry.ofCell cell = .ok geometry ∧
        (geometry.size : Int) = spec.size.toInt ∧ (geometry.offset : Int) ≠ spec.offset.toInt := by
  intro spec
  have made : Ensures (spec.cell.run {}) (fun _ _ => True) (fun _ _ => False) := by
    decide +kernel
  obtain ⟨cell, after, generated, -⟩ := made.exists_ok
  obtain ⟨numbered, accepted⟩ := generated_geometry_numbers generated
  obtain ⟨geometry, read⟩ := accepted.mpr (by decide +kernel)
  have back := numbered geometry read
  simp only [numbers, Geometry.numbers, List.forall₂_cons] at back
  obtain ⟨-, -, ⟨-, size⟩, ⟨-, offset⟩, -⟩ := back
  exact ⟨cell, after, geometry, generated, read, size.mpr (by decide), offset.not.mpr (by decide)⟩

/-- The size and the offset of a specification may come back altered: only two rows, from address one
on, are left of a memory of 2^62 + 2 rows from address 2^32 + 1 on. -/
theorem wide_numbers_altered :
    let spec : MemorySpec := ⟨2, 4, 0x4000000000000002, 0x100000001, 1, 0⟩
    Ensures (spec.cell.run {})
      (fun cell _ =>
        Geometry.ofCell cell = .ok ⟨2, 4, 2, 1, 1, 1⟩ ∧
          spec.numbers = [2, 4, 0x4000000000000002, 0x100000001, 1, 1])
      (fun _ _ => False) := by
  decide +kernel

end MemorySpec

end CircuitNetwork
