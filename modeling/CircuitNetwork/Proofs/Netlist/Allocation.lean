import CircuitNetwork.Proofs.Netlist.MemoryCell

namespace CircuitNetwork

/-!
# Nets of generated cells

The nets of a generated cell are numbered one after another, from the next
number of the allocator on. No net stands in two places of a cell, apart from the
enable bits of a write port: all bits of a word share one net.
-/

namespace Nets

/-- The allocator after a request. One that is refused takes no nets. -/
def request (nets : Nets) (count : Int) : Nets :=
  match fresh count nets with
  | .ok _ later => later
  | .error _ later => later

theorem next_le_request
    (nets : Nets)
    (count : Int) :
    nets.next ≤ (nets.request count).next := by
  unfold request fresh
  split <;> rename_i ran
  · split at ran
    · cases ran
    · cases ran
      exact Nat.le_add_right _ _
  · split at ran <;> cases ran
    exact Nat.le_refl _

/-- The allocator after any requests. -/
def afterRequests (counts : List Int) : Nets :=
  counts.foldl request {}

/-- The numbers of nets start at two, whatever was requested before. -/
theorem two_le_next
    (counts : List Int) :
    2 ≤ (afterRequests counts).next :=
  List.foldlRecOn counts request (motive := fun nets => 2 ≤ nets.next) (Nat.le_refl 2)
    fun nets enough count _ => enough.trans (nets.next_le_request count)

end Nets

namespace Bit

/-- The bit at a place of named vectors. -/
def at? (vectors : List (String × List Bit)) (place : String × Nat) : Option Bit :=
  (vectors.lookup place.1).bind (·[place.2]?)

theorem at?_cons
    (name : String)
    (bits : List Bit)
    (rest : List (String × List Bit))
    (place : String × Nat) :
    at? ((name, bits) :: rest) place = if place.1 = name then bits[place.2]? else at? rest place := by
  unfold at?
  rw [List.lookup_cons]
  split <;> simp_all

theorem net_injective
    {number other : Nat}
    (same : net number = net other) :
    number = other := by
  simpa [net] using same

theorem isConst_net
    {number : Nat}
    (enough : 2 ≤ number) :
    (net number).isConst = false := by
  have notBelow : ¬(number : Int) < 2 := by omega
  exact decide_eq_false notBelow

theorem le_blocksEnd
    (start : Nat)
    (lengths : List (String × Nat)) :
    start ≤ blocksEnd start lengths := by
  induction lengths generalizing start with
  | nil =>
      exact Nat.le_refl start
  | cons first rest inductionHypothesis =>
      exact (Nat.le_add_right start first.2).trans (inductionHypothesis _)

theorem getElem?_nets
    {start count index : Nat}
    {bit : Bit} :
    (nets start count)[index]? = some bit ↔ index < count ∧ bit = net (start + index) := by
  rw [List.getElem?_eq_some_iff]
  simp [nets, eq_comm]

/-- The nets of consecutive ranges lie between the ends of the ranges. -/
theorem exists_net_of_at?
    {start : Nat}
    {lengths : List (String × Nat)}
    {place : String × Nat}
    {bit : Bit}
    (found : at? (blocks start lengths) place = some bit) :
    ∃ number, bit = net number ∧ start ≤ number ∧ number < blocksEnd start lengths := by
  induction lengths generalizing start with
  | nil =>
      cases found
  | cons first rest inductionHypothesis =>
      obtain ⟨name, length⟩ := first
      have ends := le_blocksEnd (start + length) rest
      rw [blocks, at?_cons] at found
      rw [blocksEnd]
      split at found
      · obtain ⟨inRange, rfl⟩ := getElem?_nets.mp found
        exact ⟨start + place.2, rfl, by omega, by omega⟩
      · obtain ⟨number, isNet, above, below⟩ := inductionHypothesis found
        exact ⟨number, isNet, by omega, below⟩

/-- No net stands in two places of consecutive ranges. -/
theorem place_eq_of_at?
    {start : Nat}
    {lengths : List (String × Nat)}
    {place other : String × Nat}
    {bit : Bit}
    (found : at? (blocks start lengths) place = some bit)
    (foundOther : at? (blocks start lengths) other = some bit) :
    place = other := by
  induction lengths generalizing start with
  | nil =>
      cases found
  | cons first rest inductionHypothesis =>
      obtain ⟨name, length⟩ := first
      -- A net of the first range comes before those of the others.
      have apart {early late : String × Nat}
          (inFirst : (nets start length)[early.2]? = some bit)
          (inRest : at? (blocks (start + length) rest) late = some bit) : False := by
        obtain ⟨inRange, isNet⟩ := getElem?_nets.mp inFirst
        obtain ⟨number, sameNet, above, -⟩ := exists_net_of_at? inRest
        have := net_injective (isNet.symm.trans sameNet)
        omega
      rw [blocks, at?_cons] at found foundOther
      split at found <;> split at foundOther
      · rename_i sameName otherName
        obtain ⟨-, isNet⟩ := getElem?_nets.mp found
        obtain ⟨-, otherNet⟩ := getElem?_nets.mp foundOther
        have := net_injective (isNet.symm.trans otherNet)
        exact Prod.ext (sameName.trans otherName.symm) (by omega)
      · exact (apart found foundOther).elim
      · exact (apart foundOther found).elim
      · exact inductionHypothesis found foundOther

/-- Every net between the ends of consecutive ranges stands in one of them. -/
theorem exists_at?
    {start number : Nat}
    {lengths : List (String × Nat)}
    (distinct : (lengths.map (·.1)).Nodup)
    (above : start ≤ number)
    (below : number < blocksEnd start lengths) :
    ∃ place, place.1 ∈ lengths.map (·.1) ∧ at? (blocks start lengths) place = some (net number) := by
  induction lengths generalizing start with
  | nil =>
      rw [blocksEnd] at below
      omega
  | cons first rest inductionHypothesis =>
      obtain ⟨name, length⟩ := first
      obtain ⟨notInRest, restDistinct⟩ := List.nodup_cons.mp distinct
      by_cases inFirst : number < start + length
      · refine ⟨(name, number - start), by simp, ?_⟩
        rw [blocks, at?_cons, if_pos rfl]
        exact getElem?_nets.mpr ⟨by omega, congrArg net (by omega)⟩
      · obtain ⟨place, listed, found⟩ := inductionHypothesis restDistinct (by omega) below
        have different : place.1 ≠ name := fun same => notInRest (same ▸ listed)
        exact ⟨place, List.mem_cons_of_mem _ listed, by rw [blocks, at?_cons, if_neg different, found]⟩

/-- In a vector that repeats each bit, the repetitions of a bit stand together. -/
theorem getElem?_flatMap_replicate
    (width : Nat)
    (bits : List Bit)
    (index : Nat) :
    (bits.flatMap (List.replicate width ·))[index]? =
      if width = 0 then none else bits[index / width]? := by
  induction bits generalizing index with
  | nil =>
      simp
  | cons bit rest inductionHypothesis =>
      rw [List.flatMap_cons, List.getElem?_append, inductionHypothesis, List.length_replicate]
      by_cases zero : width = 0
      · simp [zero]
      · by_cases inFirst : index < width
        · simp [zero, inFirst, Nat.div_eq_of_lt inFirst]
        · have further : index / width = (index - width) / width + 1 :=
            Nat.div_eq_sub_div (by omega) (by omega)
          simp [zero, inFirst, further]

end Bit

/-- The bit at a place of a cell, which is the name of a connection with an index. -/
def Cell.bitAt? (cell : Cell) (place : String × Nat) : Option Bit :=
  (cell.bits? place.1).bind (·[place.2]?)

namespace Geometry

/-- The ranges of nets of a memory cell. There is one enable net for each write port, unless no bits
are written. -/
def ranges (geometry : Geometry) : List (String × Nat) :=
  geometry.netLengths ++ [("WR_EN", if geometry.width = 0 then 0 else geometry.writePorts)]

/-- The place in the ranges of nets that a place of the cell stands for. -/
def rangePlace (geometry : Geometry) (place : String × Nat) : String × Nat :=
  if place.1 = "WR_EN" then (place.1, place.2 / geometry.width) else place

end Geometry

namespace MemorySpec

variable {spec : MemorySpec} {start : Nat} {cell : Cell}

theorem IsCell.bitAt?
    (isCell : spec.IsCell start cell)
    (place : String × Nat) :
    cell.bitAt? place =
      Bit.at? ((spec.connectionsFrom start).map fun entry => (entry.1, entry.2.getD [])) place := by
  rw [Cell.bitAt?, isCell.bits?, Bit.at?]
  congr 1
  induction spec.connectionsFrom start with
  | nil =>
      rfl
  | cons entry rest inductionHypothesis =>
      rw [List.map_cons, List.lookup_cons, List.lookup_cons]
      split <;> simp_all

/-- The connections with a fixed value. -/
def literalNames : List String := ["RD_CLK", "RD_EN", "RD_ARST", "RD_SRST"]

/-- Connections with a fixed value have no nets. -/
theorem IsCell.isConst_of_mem
    (isCell : spec.IsCell start cell)
    {name : String}
    (literal : name ∈ literalNames)
    {index : Nat}
    {bit : Bit}
    (found : cell.bitAt? (name, index) = some bit) :
    bit.isConst = true := by
  rw [isCell.bitAt?] at found
  simp only [connectionsFrom, literalBits, List.cons_append, List.map_cons, Bit.at?_cons] at found
  simp only [literalNames, List.mem_cons, List.not_mem_nil, or_false] at literal
  obtain rfl | rfl | rfl | rfl := literal <;>
    · simp only [String.reduceEq, ↓reduceIte, Option.getD_some, List.getElem?_replicate] at found
      split at found <;> cases found
      rfl

/-- The other connections are made of the ranges of nets. -/
theorem IsCell.bitAt?_of_not_mem
    (isCell : spec.IsCell start cell)
    {name : String}
    (other : name ∉ literalNames)
    (index : Nat) :
    cell.bitAt? (name, index) =
      Bit.at? (Bit.blocks start spec.geometry.ranges) (spec.geometry.rangePlace (name, index)) := by
  rw [isCell.bitAt?]
  simp only [literalNames, List.mem_cons, List.not_mem_nil, or_false, not_or] at other
  obtain ⟨notClock, notEnable, notReset, notSyncReset⟩ := other
  simp only [connectionsFrom, literalBits, Geometry.ranges, Geometry.netLengths, Bit.blocks,
    Bit.blocksEnd, List.cons_append, List.nil_append, List.map_cons, List.map_nil, Bit.at?_cons,
    Geometry.rangePlace, notClock, notEnable, notReset, notSyncReset, ↓reduceIte]
  by_cases enable : name = "WR_EN"
  · subst enable
    simp only [String.reduceEq, ↓reduceIte]
    by_cases zero : spec.geometry.width = 0
    · simp [zero, Bit.nets]
    · simp [zero, Bit.getElem?_flatMap_replicate]
  · simp [enable]

/-- The nets of a generated cell are those of its ranges. -/
theorem IsCell.bitAt?_eq_net_iff
    (isCell : spec.IsCell start cell)
    (enough : 2 ≤ start)
    (place : String × Nat)
    (bit : Bit) :
    cell.bitAt? place = some bit ∧ bit.isConst = false ↔
      Bit.at? (Bit.blocks start spec.geometry.ranges) (spec.geometry.rangePlace place) = some bit := by
  obtain ⟨name, index⟩ := place
  by_cases literal : name ∈ literalNames
  · have absent : Bit.at? (Bit.blocks start spec.geometry.ranges)
        (spec.geometry.rangePlace (name, index)) = none := by
      simp only [literalNames, List.mem_cons, List.not_mem_nil, or_false] at literal
      obtain rfl | rfl | rfl | rfl := literal <;> rfl
    rw [absent]
    simp only [reduceCtorEq, iff_false, not_and]
    intro found
    simp [isCell.isConst_of_mem literal found]
  · rw [isCell.bitAt?_of_not_mem literal]
    refine ⟨fun found => found.1, fun found => ⟨found, ?_⟩⟩
    obtain ⟨number, rfl, above, -⟩ := Bit.exists_net_of_at? found
    exact Bit.isConst_net (enough.trans above)

/-- Every net of the ranges stands somewhere in the cell. -/
theorem exists_rangePlace_eq
    {geometry : Geometry}
    {start : Nat}
    {place : String × Nat}
    {bit : Bit}
    (found : Bit.at? (Bit.blocks start geometry.ranges) place = some bit) :
    ∃ inCell, geometry.rangePlace inCell = place := by
  obtain ⟨name, index⟩ := place
  by_cases enable : name = "WR_EN"
  · have wide : 0 < geometry.width := by
      subst enable
      by_contra narrow
      have zero : geometry.width = 0 := by omega
      simp only [Geometry.ranges, Geometry.netLengths, List.cons_append, List.nil_append, Bit.blocks,
        Bit.at?_cons, String.reduceEq, zero, ↓reduceIte] at found
      cases found
    exact ⟨(name, index * geometry.width), by
      simp [Geometry.rangePlace, enable, Nat.mul_div_cancel _ wide]⟩
  · exact ⟨(name, index), by simp [Geometry.rangePlace, enable]⟩

end MemorySpec

/-- The nets of a cell are numbered one after another from a given number on. No net stands in two
places, except that all enable bits of a write port, of which there are as many as a word has bits, are
one net. -/
structure Cell.Numbered (cell : Cell) (width start count : Nat) : Prop where
  consecutive :
    ∀ bit, bit.isConst = false →
      ((∃ place, cell.bitAt? place = some bit) ↔
        (start : Int) ≤ bit.code ∧ bit.code < start + count)
  unshared :
    ∀ place other bit, cell.bitAt? place = some bit → cell.bitAt? other = some bit →
      bit.isConst = false →
        place = other ∨
          place.1 = "WR_EN" ∧ other.1 = "WR_EN" ∧ place.2 / width = other.2 / width
  enabled :
    ∀ index other, index / width = other / width →
      cell.bitAt? ("WR_EN", index) = cell.bitAt? ("WR_EN", other)

/-- The number of nets of a memory cell. -/
def Geometry.netCount (geometry : Geometry) : Nat :=
  geometry.readPorts * (geometry.addressBits + geometry.width) +
    geometry.writePorts * (1 + geometry.addressBits + geometry.width) +
    if geometry.width = 0 then 0 else geometry.writePorts

theorem Geometry.nodup_ranges
    (geometry : Geometry) :
    (geometry.ranges.map (·.1)).Nodup := by
  simp only [ranges, netLengths, List.cons_append, List.nil_append, List.map_cons, List.map_nil]
  decide

theorem Geometry.blocksEnd_ranges
    (geometry : Geometry)
    (start : Nat) :
    Bit.blocksEnd start geometry.ranges = start + geometry.netCount := by
  simp only [ranges, netLengths, List.cons_append, List.nil_append, Bit.blocksEnd, netCount]
  ring

theorem MemorySpec.IsCell.numbered
    {spec : MemorySpec}
    {start : Nat}
    {cell : Cell}
    (isCell : spec.IsCell start cell)
    (enough : 2 ≤ start) :
    cell.Numbered spec.geometry.width start spec.geometry.netCount where
  consecutive bit isNet := by
    constructor
    · rintro ⟨place, found⟩
      obtain ⟨number, rfl, above, below⟩ :=
        Bit.exists_net_of_at? ((isCell.bitAt?_eq_net_iff enough place bit).mp ⟨found, isNet⟩)
      rw [spec.geometry.blocksEnd_ranges] at below
      simp only [Bit.net]
      omega
    · rintro ⟨above, below⟩
      have isNumber : bit = Bit.net bit.code.toNat := by
        cases bit
        simp only [Bit.net, Bit.mk.injEq] at above ⊢
        omega
      obtain ⟨place, -, found⟩ := Bit.exists_at? spec.geometry.nodup_ranges
        (show start ≤ bit.code.toNat by omega)
        (by rw [spec.geometry.blocksEnd_ranges]; omega)
      rw [← isNumber] at found
      obtain ⟨inCell, rfl⟩ := exists_rangePlace_eq found
      exact ⟨inCell, ((isCell.bitAt?_eq_net_iff enough inCell bit).mpr found).1⟩
  unshared place other bit found foundOther isNet := by
    have same : spec.geometry.rangePlace place = spec.geometry.rangePlace other :=
      Bit.place_eq_of_at?
        ((isCell.bitAt?_eq_net_iff enough place bit).mp ⟨found, isNet⟩)
        ((isCell.bitAt?_eq_net_iff enough other bit).mp ⟨foundOther, isNet⟩)
    unfold Geometry.rangePlace at same
    split at same <;> split at same
    · rename_i enable otherEnable
      exact .inr ⟨enable, otherEnable, congrArg Prod.snd same⟩
    · rename_i enable otherName
      exact (otherName ((congrArg Prod.fst same).symm.trans enable)).elim
    · rename_i name enable
      exact (name ((congrArg Prod.fst same).trans enable)).elim
    · exact .inl same
  enabled index other samePort := by
    rw [isCell.bitAt?_of_not_mem (by decide), isCell.bitAt?_of_not_mem (by decide)]
    simp only [Geometry.rangePlace, ↓reduceIte, samePort]

end CircuitNetwork
