import CircuitNetwork.Proofs.Computation
import CircuitNetwork.Proofs.Netlist.Param
import CircuitNetwork.Synthesis.Bank
import Mathlib.Data.List.Nodup

namespace CircuitNetwork

/-!
# Generated memory cells

The cell that a specification generates gives the geometry of the specification
back, and its connections are consecutive ranges of fresh nets.
-/

namespace Dict

variable {α : Type}

theorem entries_set_of_not_mem
    {dict : Dict α}
    {name : String}
    (unknown : name ∉ dict.entries.map (·.1))
    (value : α) :
    (dict.set name value).entries = dict.entries ++ [(name, value)] := by
  simp only [set, unknown, ↓reduceDIte]

/-- Distinct new names are added in order, each with its value. -/
theorem entries_foldl_set
    (entries : List (String × α))
    (dict : Dict α)
    (distinct : ((dict.entries ++ entries).map (·.1)).Nodup) :
    (entries.foldl (fun dict entry => dict.set entry.1 entry.2) dict).entries =
      dict.entries ++ entries := by
  induction entries generalizing dict with
  | nil =>
      simp
  | cons entry rest inductionHypothesis =>
      have unknown : entry.1 ∉ dict.entries.map (·.1) := by
        intro member
        rw [List.map_append, List.nodup_append] at distinct
        exact distinct.2.2 entry.1 member entry.1 (by simp) rfl
      have added := entries_set_of_not_mem unknown entry.2
      rw [List.foldl_cons, inductionHypothesis, added, List.append_assoc]
      · rfl
      · rw [added, List.append_assoc]
        exact distinct

/-- In a list of distinct names each is found with its value. -/
theorem find?_ofList
    {entries : List (String × α)}
    (distinct : (entries.map (·.1)).Nodup)
    (name : String) :
    (ofList entries).find? name = entries.lookup name := by
  have stored := entries_foldl_set entries empty (by simpa [empty] using distinct)
  rw [find?, ofList, stored]
  rfl

/-- In a list of distinct names the value of an entry is found under its name. -/
theorem lookup_of_mem
    {entries : List (String × α)}
    (distinct : (entries.map (·.1)).Nodup)
    {entry : String × α}
    (member : entry ∈ entries) :
    entries.lookup entry.1 = some entry.2 := by
  obtain ⟨before, rest, rfl⟩ := List.mem_iff_append.mp member
  refine List.lookup_eq_some_iff.mpr ⟨before, rest, rfl, fun earlier earlierMember => ?_⟩
  rw [List.map_append, List.nodup_append] at distinct
  have different :=
    distinct.2.2 earlier.1 (List.mem_map_of_mem earlierMember) entry.1 (by simp)
  simpa using different.symm

end Dict

theorem Cell.bits?_of_connections
    {cell : Cell}
    {entries : List (String × Option (List Bit))}
    (connections : cell.connections = some (.ofList entries))
    (distinct : (entries.map (·.1)).Nodup)
    (name : String) :
    cell.bits? name = (entries.lookup name).map (·.getD []) := by
  rw [Cell.bits?, connections, Option.bind_some, Dict.find?_ofList distinct]

namespace Bit

/-- Consecutive nets. -/
def nets (start count : Nat) : List Bit :=
  (List.range count).map fun index => net (start + index)

@[simp] theorem length_nets
    (start count : Nat) :
    (nets start count).length = count := by
  simp [nets]

/-- A range of nets within a range. -/
theorem take_drop_nets
    {start count skipped width : Nat}
    (inside : skipped + width ≤ count) :
    ((nets start count).drop skipped).take width = nets (start + skipped) width := by
  apply List.ext_getElem
  · simp
    omega
  · intro index inTaken inRange
    simp [nets, Nat.add_assoc]

/-- Ranges that are not empty differ if they start at different nets. -/
theorem start_eq_of_nets_eq
    {start other count otherCount : Nat}
    (nonempty : 0 < count)
    (same : nets start count = nets other otherCount) :
    start = other := by
  have sameLength := congrArg List.length same
  simp only [length_nets] at sameLength
  have sameFirst := congrArg (·[0]?) same
  simpa [nets, net, nonempty, sameLength ▸ nonempty] using sameFirst

/-- Ranges that start at different nets are different. -/
theorem nodup_nets
    {ranges : List (Nat × Nat)}
    (nonempty : ∀ range ∈ ranges, 0 < range.2)
    (distinct : (ranges.map (·.1)).Nodup) :
    (ranges.map fun range => nets range.1 range.2).Nodup := by
  rw [List.Nodup, List.pairwise_map] at distinct ⊢
  refine distinct.imp_of_mem ?_
  intro first second member _ different same
  exact different (start_eq_of_nets_eq (nonempty first member) same)

/-- Consecutive ranges of nets with their names, given the length of each. -/
def blocks (start : Nat) : List (String × Nat) → List (String × List Bit)
  | [] => []
  | (name, length) :: rest => (name, nets start length) :: blocks (start + length) rest

/-- The first net after consecutive ranges. -/
def blocksEnd (start : Nat) : List (String × Nat) → Nat
  | [] => start
  | (_, length) :: rest => blocksEnd (start + length) rest

end Bit

/-- Nets are handed out in order and used, unless there are more of them than a vector can hold. -/
theorem Nets.fresh_bind_ensures
    {α : Type}
    {length : Nat}
    {storable : Prop}
    (needed : storable → (length : Int) ≤ maxLength)
    {next : List Bit → EStateM Failure Nets α}
    {succeeded : α → Nets → Prop}
    {nets : Nets}
    (used :
      (length : Int) ≤ maxLength →
        Ensures (next (Bit.nets nets.next length) ⟨nets.next + length⟩) succeeded
          (fun failure _ => ¬storable ∧ failure = .ofCrash .impossibleLength)) :
    Ensures ((fresh length >>= next) nets) succeeded
      (fun failure _ => ¬storable ∧ failure = .ofCrash .impossibleLength) := by
  apply Ensures.bind
  unfold fresh
  split <;> rename_i range
  · exact ⟨fun stored => by have := needed stored; omega, rfl⟩
  · exact used (by omega)

/-- The numbers of a geometry, in the order in which they are read. -/
def Geometry.numbers (geometry : Geometry) : List Nat :=
  [geometry.addressBits, geometry.width, geometry.size, geometry.offset, geometry.readPorts,
    geometry.writePorts]

/-- What a number that is written in 32 digits is read back as. -/
def ReadBack (asked : Int) (number : Nat) : Prop :=
  (number : Int) = asked % 0x100000000 ∧ number < 0x80000000

/-- A number of at most 31 bits is read back as it is. -/
theorem readBack_of_lt
    {field : Int64}
    (small : 0 ≤ field.toInt ∧ field.toInt < 0x80000000) :
    ReadBack field.toInt field.toNatClampNeg := by
  have same : (field.toNatClampNeg : Int) = field.toInt := Int.toNat_of_nonneg small.1
  exact ⟨by omega, by omega⟩

namespace Geometry

/-- The connections of a memory cell that are nets of their own, with their lengths. -/
def netLengths (geometry : Geometry) : List (String × Nat) := [
  ("RD_ADDR", geometry.readPorts * geometry.addressBits),
  ("RD_DATA", geometry.readPorts * geometry.width),
  ("WR_CLK", geometry.writePorts),
  ("WR_ADDR", geometry.writePorts * geometry.addressBits),
  ("WR_DATA", geometry.writePorts * geometry.width)]

/-- Every parameter that a cell of this geometry needs can be a text, and every connection a vector. -/
structure Storable (geometry : Geometry) : Prop where
  digits :
    ∀ length ∈ [geometry.size * geometry.width, geometry.readPorts * geometry.writePorts,
        geometry.readPorts * geometry.width, geometry.writePorts * geometry.writePorts],
      (length : Int) ≤ MemorySpec.maxDigits
  bits :
    ∀ length ∈ [geometry.readPorts * geometry.addressBits, geometry.readPorts * geometry.width,
        geometry.writePorts * geometry.addressBits, geometry.writePorts * geometry.width],
      (length : Int) ≤ Nets.maxLength

instance (geometry : Geometry) : Decidable geometry.Storable :=
  decidable_of_iff (_ ∧ _) ⟨fun both => ⟨both.1, both.2⟩, fun fits => ⟨fits.digits, fits.bits⟩⟩

end Geometry

namespace MemorySpec

variable {spec : MemorySpec}

/-- The fields of a specification. -/
def fields (spec : MemorySpec) : List Int64 :=
  [spec.addressBits, spec.width, spec.size, spec.offset, spec.readPorts, spec.writePorts]

/-- All fields are numbers of at most 31 bits. -/
def Small (spec : MemorySpec) : Prop :=
  ∀ field ∈ spec.fields, 0 ≤ field.toInt ∧ field.toInt < 0x80000000

instance (spec : MemorySpec) : Decidable spec.Small :=
  List.decidableBAll (fun field : Int64 => 0 ≤ field.toInt ∧ field.toInt < 0x80000000) spec.fields

/-- The geometry that a specification asks for. -/
def geometry (spec : MemorySpec) : Geometry where
  addressBits := spec.addressBits.toNatClampNeg
  width := spec.width.toNatClampNeg
  size := spec.size.toNatClampNeg
  offset := spec.offset.toNatClampNeg
  readPorts := spec.readPorts.toNatClampNeg
  writePorts := spec.writers.toNatClampNeg

/-- The numbers that a specification asks for, in the order in which they are read. -/
def numbers (spec : MemorySpec) : List Int :=
  [spec.addressBits.toInt, spec.width.toInt, spec.size.toInt, spec.offset.toInt,
    spec.readPorts.toInt, spec.writers.toInt]

theorem Small.writers
    (small : spec.Small) :
    0 ≤ spec.writers.toInt ∧ spec.writers.toInt < 0x80000000 := by
  unfold MemorySpec.writers
  split
  · decide
  · exact small spec.writePorts (by simp [fields])

/-- A product of two such numbers does not wrap around. -/
theorem toInt_mul
    {left right : Int64}
    (leftSmall : 0 ≤ left.toInt ∧ left.toInt < 0x80000000)
    (rightSmall : 0 ≤ right.toInt ∧ right.toInt < 0x80000000) :
    (left * right).toInt = ((left.toNatClampNeg * right.toNatClampNeg : Nat) : Int) := by
  have nonnegative : 0 ≤ left.toInt * right.toInt :=
    Int.mul_nonneg leftSmall.1 rightSmall.1
  have bounded : left.toInt * right.toInt ≤ 0x80000000 * 0x80000000 :=
    Int.mul_le_mul (by omega) (by omega) rightSmall.1 (by decide)
  rw [Int64.toInt_mul, Int.bmod_eq_of_le (by omega) (by omega)]
  push_cast
  rw [Int64.toNatClampNeg, Int64.toNatClampNeg, Int.toNat_of_nonneg leftSmall.1,
    Int.toNat_of_nonneg rightSmall.1]

/-- The parameters are the numbers, and after them others with fixed names. -/
theorem params_eq_ok
    {params : List (String × Param)}
    (given : spec.params = .ok params) :
    ∃ others : List (String × Param),
      params = spec.numberParams ++ others ∧
        others.map (·.1) = spec.repeatedParams.map (·.1) := by
  obtain ⟨others, made, rest⟩ := except_bind_eq_ok.mp given
  cases rest
  refine ⟨others, rfl, ?_⟩
  clear given
  generalize spec.repeatedParams = rules at made
  induction rules generalizing others with
  | nil =>
      cases made
      rfl
  | cons rule rules inductionHypothesis =>
      rw [List.mapM_cons] at made
      obtain ⟨param, repeated, made⟩ := except_bind_eq_ok.mp made
      obtain ⟨rest, restMade, made⟩ := except_bind_eq_ok.mp made
      cases made
      have sameName : param.1 = rule.1 := by
        simp only [Except.map] at repeated
        split at repeated <;> cases repeated
        rfl
      rw [List.map_cons, inductionHypothesis rest restMade, List.map_cons, sameName]

/-- A number of the specification is found among all the parameters. -/
theorem find?_params
    {params : List (String × Param)}
    (given : spec.params = .ok params)
    {name : String}
    {param : Param}
    (found : spec.numberParams.lookup name = some param) :
    (Dict.ofList params).find? name = some param := by
  obtain ⟨others, rfl, names⟩ := params_eq_ok given
  rw [Dict.find?_ofList, List.lookup_append, found]
  · rfl
  · rw [List.map_append, names]
    simp only [numberParams, repeatedParams, List.map_cons, List.map_nil, List.cons_append,
      List.nil_append]
    decide

/-- A number that is among the parameters is read back reduced, unless it then counts as negative. -/
theorem natParam_eq_ok_iff
    {cell : Cell}
    {params : List (String × Param)}
    (given : spec.params = .ok params)
    (parameters : cell.parameters = some (.ofList params))
    (name : String)
    {asked : Int}
    (found : spec.numberParams.lookup name = some (Param.ofInt asked))
    (number : Nat) :
    Geometry.natParam cell name = .ok number ↔ ReadBack asked number := by
  have known : cell.param? name = some (Param.ofInt asked) := by
    rw [Cell.param?, parameters, Option.bind_some, find?_params given found]
  have read : cell.int name = .ok (Param.signed (asked % 0x100000000).toNat) := by
    rw [Cell.int, Cell.param, known]
    simp only [Param.toInt_ofInt, bind, Except.bind]
  rw [Geometry.natParam, read]
  simp only [bind, Except.bind, Param.signed, ReadBack]
  split <;> rename_i range
  · rw [if_neg (by omega), Except.ok.injEq]
    omega
  · rw [if_pos (by omega)]
    simp only [reduceCtorEq, false_iff]
    omega

/-- A geometry is read back from a cell number by number. -/
theorem geometry_ofCell_iff
    {cell : Cell}
    {params : List (String × Param)}
    (memory : cell.type = memoryType)
    (given : spec.params = .ok params)
    (parameters : cell.parameters = some (.ofList params))
    (geometry : Geometry) :
    Geometry.ofCell cell = .ok geometry ↔ List.Forall₂ ReadBack spec.numbers geometry.numbers := by
  have read := natParam_eq_ok_iff given parameters
  simp only [Geometry.ofCell, memory, ne_eq, not_true_eq_false, ↓reduceIte, except_bind_eq_ok,
    read "ABITS" rfl, read "WIDTH" rfl, read "SIZE" rfl, read "OFFSET" rfl, read "RD_PORTS" rfl,
    read "WR_PORTS" rfl, pure, Except.pure, Except.ok.injEq]
  simp only [numbers, Geometry.numbers, List.forall₂_cons, List.Forall₂.nil, and_true]
  constructor
  · rintro ⟨_, addressBits, _, width, _, size, _, offset, _, readPorts, _, writePorts, rfl⟩
    exact ⟨addressBits, width, size, offset, readPorts, writePorts⟩
  · rintro ⟨addressBits, width, size, offset, readPorts, writePorts⟩
    exact ⟨_, addressBits, _, width, _, size, _, offset, _, readPorts, _, writePorts, rfl⟩

theorem geometry_ofCell
    (small : spec.Small)
    {cell : Cell}
    {params : List (String × Param)}
    (memory : cell.type = memoryType)
    (given : spec.params = .ok params)
    (parameters : cell.parameters = some (.ofList params)) :
    Geometry.ofCell cell = .ok spec.geometry := by
  have back (field : Int64) (member : field ∈ spec.fields) :
      ReadBack field.toInt field.toNatClampNeg :=
    readBack_of_lt (small field member)
  rw [geometry_ofCell_iff memory given parameters]
  simp only [numbers, geometry, Geometry.numbers, List.forall₂_cons, List.Forall₂.nil, and_true]
  exact ⟨back _ (by simp [fields]), back _ (by simp [fields]), back _ (by simp [fields]),
    back _ (by simp [fields]), back _ (by simp [fields]), readBack_of_lt small.writers⟩

theorem enableBits_run
    (width ports : Nat)
    (nets : Nets) :
    enableBits width ports nets =
      .ok ((Bit.nets nets.next ports).flatMap (List.replicate width ·)) ⟨nets.next + ports⟩ := by
  induction ports generalizing nets with
  | zero =>
      rfl
  | succ ports inductionHypothesis =>
      have allocated : Nets.fresh 1 nets = .ok [Bit.net nets.next] ⟨nets.next + 1⟩ := rfl
      rw [enableBits, bind_of_ok allocated, bind_of_ok (inductionHypothesis _)]
      simp [Bit.nets, List.range_succ_eq_map, Function.comp_def, Nat.add_assoc, Nat.add_comm 1]

/-- A generated cell is a memory with the parameters of its specification. -/
theorem parameters_of_generated
    {cell : Cell}
    {nets after : Nets}
    (generated : spec.cell.run nets = .ok cell after) :
    cell.type = memoryType ∧
      ∃ params, spec.params = .ok params ∧ cell.parameters = some (.ofList params) := by
  rw [EStateM.run, MemorySpec.cell] at generated
  cases given : spec.params with
  | error failure =>
      rw [given] at generated
      cases generated
  | ok params =>
      rw [given] at generated
      simp only [pure_bind, bind_eq_ok] at generated
      obtain ⟨_, _, _, _, _, _, _, _, _, _, _, _, _, _, _, _, _, _, made⟩ := generated
      cases made
      exact ⟨rfl, params, rfl, rfl⟩

/-- The parameter that repeats a digit, with its name. -/
def repeatedParam (rule : String × Char × Int64) : String × Param :=
  (rule.1, Param.replicate rule.2.2.toNatClampNeg rule.2.1)

/-- Digits are repeated, unless that makes a text that is too long. -/
theorem params_eq
    (nonnegative : ∀ rule ∈ spec.repeatedParams, 0 ≤ rule.2.2.toInt) :
    spec.params =
      if ∀ rule ∈ spec.repeatedParams, rule.2.2.toInt ≤ maxDigits then
        .ok (spec.numberParams ++ spec.repeatedParams.map repeatedParam)
      else
        .error (.ofCrash .impossibleLength) := by
  have repeats (rule : String × Char × Int64) (member : rule ∈ spec.repeatedParams) :
      (repeated rule.2.1 rule.2.2).map (fun param => (rule.1, param)) =
        if rule.2.2.toInt ≤ maxDigits then .ok (repeatedParam rule)
        else .error (.ofCrash .impossibleLength) := by
    have positive : ¬rule.2.2 < 0 := Int64.not_lt.mpr (Int64.le_iff_toInt_le.mpr (nonnegative rule member))
    rw [repeated, if_neg positive]
    split <;> rename_i range
    · rw [if_neg (Int.not_le.mpr range)]
      rfl
    · rw [if_pos (Int.not_lt.mp range)]
      rfl
  rw [params]
  split <;> rename_i range
  · rw [except_mapM_eq_ok fun rule member => (repeats rule member).trans (if_pos (range rule member))]
    rfl
  · simp only [not_forall] at range
    obtain ⟨rule, member, long⟩ := range
    have fails := (repeats rule member).trans (if_neg long)
    rw [except_mapM_eq_error ⟨rule, member, fails⟩ fun other otherMember => ?_]
    · rfl
    · by_cases short : other.2.2.toInt ≤ maxDigits
      · exact .inr ⟨_, (repeats other otherMember).trans (if_pos short)⟩
      · exact .inl ((repeats other otherMember).trans (if_neg short))

/-- Under a bound on the fields, no number of repetitions wraps around. -/
theorem Small.repeatedParams
    (small : spec.Small) :
    (∀ rule ∈ spec.repeatedParams, 0 ≤ rule.2.2.toInt) ∧
      ((∀ rule ∈ spec.repeatedParams, rule.2.2.toInt ≤ maxDigits) ↔
        ∀ length ∈ [spec.geometry.size * spec.geometry.width,
            spec.geometry.readPorts * spec.geometry.writePorts,
            spec.geometry.readPorts * spec.geometry.width,
            spec.geometry.writePorts * spec.geometry.writePorts],
          (length : Int) ≤ maxDigits) := by
  have width := small spec.width (by simp [fields])
  have size := small spec.size (by simp [fields])
  have reads := small spec.readPorts (by simp [fields])
  have writes := small.writers
  simp only [MemorySpec.repeatedParams, List.forall_mem_cons, List.not_mem_nil, false_imp_iff, implies_true,
    and_true, toInt_mul size width, toInt_mul reads writes, toInt_mul reads width,
    toInt_mul writes writes, geometry]
  refine ⟨by omega, ?_⟩
  unfold maxDigits
  omega

/-- The connections of a generated cell whose nets are taken from a given number on. -/
def connectionsFrom (spec : MemorySpec) (start : Nat) : List (String × Option (List Bit)) :=
  let geometry := spec.geometry
  spec.literalBits ++
    ((Bit.blocks start geometry.netLengths).map fun block => (block.1, some block.2)) ++
    [("WR_EN",
      if geometry.width = 0 then none
      else some
        ((Bit.nets (Bit.blocksEnd start geometry.netLengths) geometry.writePorts).flatMap
          (List.replicate geometry.width ·)))]

/-- The cell of a specification whose nets are taken from a given number on. -/
structure IsCell (spec : MemorySpec) (start : Nat) (cell : Cell) : Prop where
  type : cell.type = memoryType
  parameters :
    cell.parameters =
      some (.ofList (spec.numberParams ++ spec.repeatedParams.map repeatedParam))
  connections : cell.connections = some (.ofList (spec.connectionsFrom start))

theorem Small.writers_pos
    (small : spec.Small) :
    0 < spec.geometry.writePorts := by
  have range := small.writers
  have nonzero : spec.writers ≠ 0 := by
    unfold MemorySpec.writers
    split
    · decide
    · assumption
  have nonzeroInt : spec.writers.toInt ≠ 0 := fun zero => nonzero (Int64.toInt_inj.mp zero)
  change 0 < spec.writers.toInt.toNat
  omega

theorem isEmpty_enable
    {width start ports : Nat}
    (some : 0 < ports) :
    ((Bit.nets start ports).flatMap (List.replicate width ·)).isEmpty ↔ width = 0 := by
  simp only [List.isEmpty_iff, List.flatMap_eq_nil_iff, List.replicate_eq_nil_iff]
  refine ⟨fun all => all (Bit.net start) ?_, fun zero _ _ => zero⟩
  exact List.mem_map.mpr ⟨0, List.mem_range.mpr some, rfl⟩

/-- A cell is generated, unless one of its parameters or connections would be too long. -/
theorem cell_ensures
    (small : spec.Small)
    (nets : Nets) :
    Ensures (spec.cell nets)
      (fun cell _ => spec.geometry.Storable ∧ spec.IsCell nets.next cell)
      (fun failure _ => ¬spec.geometry.Storable ∧ failure = .ofCrash .impossibleLength) := by
  have address := small spec.addressBits (by simp [fields])
  have width := small spec.width (by simp [fields])
  have reads := small spec.readPorts (by simp [fields])
  have writes := small.writers
  have readAddress : _ = ((spec.geometry.readPorts * spec.geometry.addressBits : Nat) : Int) :=
    toInt_mul reads address
  have readData : _ = ((spec.geometry.readPorts * spec.geometry.width : Nat) : Int) :=
    toInt_mul reads width
  have writeClock : spec.writers.toInt = (spec.geometry.writePorts : Int) :=
    (Int.toNat_of_nonneg writes.1).symm
  have writeAddress : _ = ((spec.geometry.writePorts * spec.geometry.addressBits : Nat) : Int) :=
    toInt_mul writes address
  have writeData : _ = ((spec.geometry.writePorts * spec.geometry.width : Nat) : Int) :=
    toInt_mul writes width
  obtain ⟨nonnegative, fits⟩ := small.repeatedParams
  rw [cell, params_eq nonnegative]
  by_cases digits : ∀ rule ∈ spec.repeatedParams, rule.2.2.toInt ≤ maxDigits
  · simp only [if_pos digits, pure_bind, readAddress, readData, writeClock, writeAddress, writeData]
    refine Nets.fresh_bind_ensures (fun stored => stored.bits _ (by simp)) fun readAddressFits => ?_
    refine Nets.fresh_bind_ensures (fun stored => stored.bits _ (by simp)) fun readDataFits => ?_
    refine Nets.fresh_bind_ensures (fun _ => ?_) fun _ => ?_
    · unfold Nets.maxLength
      omega
    refine Nets.fresh_bind_ensures (fun stored => stored.bits _ (by simp)) fun writeAddressFits => ?_
    refine Nets.fresh_bind_ensures (fun stored => stored.bits _ (by simp)) fun writeDataFits => ?_
    rw [bind_of_ok (enableBits_run _ _ _)]
    refine ⟨⟨fits.mp digits, ?_⟩, rfl, rfl, ?_⟩
    · simp only [List.forall_mem_cons, List.not_mem_nil, false_imp_iff, implies_true, and_true]
      exact ⟨readAddressFits, readDataFits, writeAddressFits, writeDataFits⟩
    · have empty : ∀ start,
          ((Bit.nets start spec.writers.toNatClampNeg).flatMap
            (List.replicate spec.width.toNatClampNeg ·)).isEmpty ↔ spec.geometry.width = 0 :=
        fun start => isEmpty_enable small.writers_pos
      simp only [empty]
      rfl
  · rw [if_neg digits]
    exact ⟨fun storable => digits (fits.mpr storable.digits), rfl⟩

theorem isCell_of_generated
    (small : spec.Small)
    {cell : Cell}
    {nets after : Nets}
    (generated : spec.cell.run nets = .ok cell after) :
    spec.IsCell nets.next cell := by
  have ensured := cell_ensures small nets
  rw [show spec.cell nets = .ok cell after from generated] at ensured
  exact ensured.2

theorem IsCell.bits?
    {start : Nat}
    {cell : Cell}
    (isCell : spec.IsCell start cell)
    (name : String) :
    cell.bits? name = ((spec.connectionsFrom start).lookup name).map (·.getD []) := by
  apply Cell.bits?_of_connections isCell.connections
  simp only [connectionsFrom, literalBits, Geometry.netLengths, Bit.blocks, List.map_cons,
    List.map_nil, List.cons_append, List.nil_append]
  decide

end MemorySpec

namespace Bank

/-- What the checks say about the sizes of a memory. -/
structure Buildable (geometry : Geometry) : Prop where
  addressBits : geometry.addressBits ≤ 32
  width : 1 ≤ geometry.width ∧ geometry.width ≤ 32
  size : 1 ≤ geometry.size
  writePorts : geometry.writePorts = 1

theorem buildable_of_check
    {cell : Cell}
    {geometry : Geometry}
    (checked : check cell geometry = .ok ()) :
    Buildable geometry := by
  simp only [check, except_bind_eq_ok] at checked
  obtain ⟨_, limits, _, _, _, writers, _⟩ := checked
  rw [checkWriters] at writers
  unfold checkLimits at limits
  split at limits
  · cases limits
  split at limits
  · cases limits
  split at limits
  · cases limits
  split at limits
  · cases limits
  split at writers
  · exact ⟨by omega, by omega, by omega, by assumption⟩
  · cases writers

/-- A memory that is accepted can be built. -/
theorem buildable_of_ofCell
    {cell : Cell}
    {first : Nat}
    {bank : Bank}
    (accepted : ofCell cell first = .ok bank) :
    Buildable bank.geometry := by
  simp only [ofCell, except_bind_eq_ok] at accepted
  obtain ⟨geometry, -, _, checked, described⟩ := accepted
  cases described
  exact buildable_of_check checked

/-- The bank of a generated cell: its connections are consecutive ranges of nets. -/
def generated (geometry : Geometry) : Bank :=
  let readData := 2 + geometry.readPorts * geometry.addressBits
  let writeClock := readData + geometry.readPorts * geometry.width
  let writeAddress := writeClock + 1
  let writeData := writeAddress + geometry.addressBits
  let writeEnable := writeData + geometry.width
  { geometry := geometry
    first := 0
    readAddress := Bit.nets 2 (geometry.readPorts * geometry.addressBits)
    readData := Bit.nets readData (geometry.readPorts * geometry.width)
    writeClock := Bit.nets writeClock 1
    writeAddress := Bit.nets writeAddress geometry.addressBits
    writeData := Bit.nets writeData geometry.width
    writeEnable := Bit.nets writeEnable 1 }

/-- A slice that is not the last one ends before the end of all slices. -/
theorem slice_le
    {port ports : Nat}
    (inRange : port < ports)
    (width : Nat) :
    port * width + width ≤ ports * width := by
  rw [← Nat.succ_mul]
  exact Nat.mul_le_mul_right width inRange

theorem portAddress_generated
    (geometry : Geometry)
    {port : Nat}
    (inRange : port < geometry.readPorts) :
    (generated geometry).portAddress port =
      Bit.nets (2 + port * geometry.addressBits) geometry.addressBits :=
  Bit.take_drop_nets (slice_le inRange _)

theorem portBits_generated
    (geometry : Geometry)
    {port : Nat}
    (inRange : port < geometry.readPorts) :
    (generated geometry).portBits port =
      Bit.nets (2 + geometry.readPorts * geometry.addressBits + port * geometry.width)
        geometry.width :=
  Bit.take_drop_nets (slice_le inRange _)

/-- The vectors that the inputs of a memory are named by: those of the write port, then the address
of each read port. -/
def inputVectors (bank : Bank) : List (List Bit) :=
  [bank.writeClock, bank.writeAddress, bank.writeData, bank.writeEnable] ++
    (List.range bank.geometry.readPorts).map bank.portAddress

/-- The vectors that the read ports of a memory are named by. -/
def outputVectors (bank : Bank) : List (List Bit) :=
  (List.range bank.geometry.readPorts).map bank.portBits

theorem nodup_starts
    {width : Nat}
    (wide : 0 < width)
    (start ports : Nat) :
    ((List.range ports).map fun port => start + port * width).Nodup := by
  refine List.nodup_range.map ?_
  intro port other same
  exact Nat.eq_of_mul_eq_mul_right wide (Nat.add_left_cancel same)

/-- Every vector of a generated memory is a range of nets of its own. -/
theorem nodup_vectors
    {geometry : Geometry}
    (addressed : 0 < geometry.addressBits)
    (wide : 0 < geometry.width) :
    ((generated geometry).inputVectors ++ (generated geometry).outputVectors).Nodup := by
  let readData := 2 + geometry.readPorts * geometry.addressBits
  let writeClock := readData + geometry.readPorts * geometry.width
  let writeAddress := writeClock + 1
  let writeData := writeAddress + geometry.addressBits
  let writeEnable := writeData + geometry.width
  let ports := List.range geometry.readPorts
  let ranges : List (Nat × Nat) :=
    ([(writeClock, 1), (writeAddress, geometry.addressBits), (writeData, geometry.width),
      (writeEnable, 1)] ++
        ports.map fun port => (2 + port * geometry.addressBits, geometry.addressBits)) ++
      ports.map fun port => (readData + port * geometry.width, geometry.width)
  have vectors : (generated geometry).inputVectors ++ (generated geometry).outputVectors =
      ranges.map fun range => Bit.nets range.1 range.2 := by
    have addresses : ports.map (generated geometry).portAddress =
        ports.map fun port =>
          Bit.nets (2 + port * geometry.addressBits) geometry.addressBits :=
      List.map_congr_left fun port member =>
        portAddress_generated geometry (List.mem_range.mp member)
    have data : ports.map (generated geometry).portBits =
        ports.map fun port => Bit.nets (readData + port * geometry.width) geometry.width :=
      List.map_congr_left fun port member =>
        portBits_generated geometry (List.mem_range.mp member)
    rw [List.map_append, List.map_append, List.map_map, List.map_map]
    exact congrArg₂ (· ++ ·) (congrArg (_ ++ ·) addresses) data
  have starts : ranges.map (·.1) =
      ([writeClock, writeAddress, writeData, writeEnable] ++
          ports.map fun port => 2 + port * geometry.addressBits) ++
        ports.map fun port => readData + port * geometry.width := by
    simp [ranges, Function.comp_def]
  rw [vectors]
  apply Bit.nodup_nets
  · intro range member
    simp only [ranges, List.mem_append, List.mem_cons, List.mem_map, List.not_mem_nil,
      or_false] at member
    obtain ((rfl | rfl | rfl | rfl) | ⟨_, -, rfl⟩) | ⟨_, -, rfl⟩ := member <;>
      first | exact Nat.one_pos | assumption
  · rw [starts, List.nodup_append, List.nodup_append]
    refine ⟨⟨?_, nodup_starts addressed _ _, ?_⟩, nodup_starts wide _ _, ?_⟩
    · simp [writeAddress, writeData, writeEnable]
      omega
    · intro start member other otherMember
      simp only [List.mem_cons, List.not_mem_nil, or_false] at member
      obtain ⟨port, inRange, rfl⟩ := List.mem_map.mp otherMember
      have inside := slice_le (List.mem_range.mp inRange) geometry.addressBits
      omega
    · intro start member other otherMember
      simp only [List.mem_append, List.mem_cons, List.not_mem_nil, or_false] at member
      obtain ⟨port, inRange, rfl⟩ := List.mem_map.mp otherMember
      have inside := slice_le (List.mem_range.mp inRange) geometry.width
      rcases member with write | address
      · omega
      · obtain ⟨port, addressInRange, rfl⟩ := List.mem_map.mp address
        have addressInside := slice_le (List.mem_range.mp addressInRange) geometry.addressBits
        omega

/-- A cell that is generated and accepted makes the bank of its specification. -/
theorem ofCell_generated
    {spec : MemorySpec}
    (small : spec.Small)
    {cell : Cell}
    {after : Nets}
    (made : spec.cell.run {} = .ok cell after)
    {bank : Bank}
    (accepted : ofCell cell 0 = .ok bank) :
    bank = generated spec.geometry ∧ Buildable spec.geometry := by
  obtain ⟨memory, params, given, parameters⟩ := MemorySpec.parameters_of_generated made
  have geometry := MemorySpec.geometry_ofCell small memory given parameters
  simp only [ofCell, except_bind_eq_ok, geometry] at accepted
  obtain ⟨_, same, _, checked, described⟩ := accepted
  cases same
  have buildable := buildable_of_check checked
  refine ⟨?_, buildable⟩
  have wide : spec.geometry.width ≠ 0 := by
    have := buildable.width
    omega
  have isCell := MemorySpec.isCell_of_generated small made
  have enable (start : Nat) :
      ((Bit.nets start 1).flatMap (List.replicate spec.geometry.width ·)).take 1 =
        Bit.nets start 1 := by
    rw [show Bit.nets start 1 = [Bit.net start] from rfl, List.flatMap_singleton,
      List.take_replicate, Nat.min_eq_left buildable.width.1]
    rfl
  cases described
  simp only [isCell.bits?, MemorySpec.connectionsFrom, MemorySpec.literalBits, Geometry.netLengths,
    Bit.blocks, Bit.blocksEnd, generated, buildable.writePorts, if_neg wide, List.map_cons,
    List.map_nil, List.cons_append, List.nil_append, List.lookup_cons, String.reduceBEq,
    Option.map_some, Option.getD_some, enable, Nat.one_mul]

end Bank

end CircuitNetwork
