import CircuitNetwork.Proofs.Netlist.Allocation
import CircuitNetwork.Proofs.Synthesis.History

namespace CircuitNetwork.MemorySpec

/-!
# Memories that are accepted

A cell that is generated from a specification passes all checks but those of its
sizes and of the number of its write ports. So the memory of a specification is
built exactly if the specification keeps to the limits, and it is refused for the
first limit that it does not keep to.
-/

variable {spec : MemorySpec} {start : Nat} {cell : Cell}

/-- A repeated digit of the specification is found among the parameters. -/
theorem IsCell.param?_of_mem
    (isCell : spec.IsCell start cell)
    {rule : String × Char × Int64}
    (member : rule ∈ spec.repeatedParams) :
    cell.param? rule.1 = some (Param.replicate rule.2.2.toNatClampNeg rule.2.1) := by
  have distinct :
      ((spec.numberParams ++ spec.repeatedParams.map repeatedParam).map (·.1)).Nodup := by
    simp only [numberParams, repeatedParams, List.map_cons, List.map_nil, List.cons_append,
      List.nil_append, repeatedParam]
    decide
  have listed : repeatedParam rule ∈ spec.numberParams ++ spec.repeatedParams.map repeatedParam :=
    List.mem_append_right _ (List.mem_map_of_mem member)
  rw [Cell.param?, isCell.parameters, Option.bind_some, Dict.find?_ofList distinct]
  exact Dict.lookup_of_mem distinct listed

/-- The rules for parameters ask for the digits that a specification repeats. -/
theorem IsCell.checkParam_eq_ok
    (isCell : spec.IsCell start cell)
    {rule : ParamRule}
    (ruled : rule ∈ Bank.readParamRules ++ Bank.writeParamRules) :
    Bank.checkParam cell rule = .ok () := by
  have asked : (rule.name, rule.digit) ∈ spec.repeatedParams.map fun made => (made.1, made.2.1) := by
    have same : (spec.repeatedParams.map fun made => (made.1, made.2.1)) =
        (Bank.readParamRules ++ Bank.writeParamRules).map fun rule => (rule.name, rule.digit) := rfl
    rw [same]
    exact List.mem_map_of_mem ruled
  obtain ⟨⟨name, digit, count⟩, member, same⟩ := List.mem_map.mp asked
  obtain ⟨rfl, rfl⟩ := Prod.mk.inj same
  have single : ∀ rule ∈ Bank.readParamRules ++ Bank.writeParamRules,
      String.utf8EncodeChar rule.digit = [rule.digit.toUInt8] := by
    decide
  rw [Bank.checkParam, Cell.param, isCell.param?_of_mem member]
  simp only [bind, Except.bind, Param.allAre_replicate (single rule ruled), ↓reduceIte]

/-- The rules for connections ask for the literals that a specification repeats. -/
theorem IsCell.checkBits_eq_ok
    (isCell : spec.IsCell start cell)
    {rule : BitRule}
    (ruled : rule ∈ Bank.bitRules) :
    Bank.checkBits cell rule = .ok () := by
  have literal : cell.bits? rule.name =
      some (List.replicate spec.readPorts.toNatClampNeg rule.bit) := by
    rw [isCell.bits?]
    simp only [Bank.bitRules, List.mem_cons, List.not_mem_nil, or_false] at ruled
    obtain rfl | rfl | rfl | rfl := ruled <;> rfl
  rw [Bank.checkBits, Cell.bits, literal]
  simp [bind, Except.bind, Bit.allAre]

/-- With one write port, all connections have the widths that are asked for. -/
theorem IsCell.checkWidth_eq_ok
    (isCell : spec.IsCell start cell)
    (single : spec.geometry.writePorts = 1)
    {expected : String × Nat}
    (asked : expected ∈ Bank.widths spec.geometry) :
    Bank.checkWidth cell expected = .ok () := by
  have width : ∃ bits, cell.bits? expected.1 = some bits ∧ bits.length = expected.2 := by
    rw [isCell.bits?]
    simp only [Bank.widths, List.mem_cons, List.not_mem_nil, or_false] at asked
    simp only [connectionsFrom, literalBits, Geometry.netLengths, Bit.blocks, Bit.blocksEnd, single,
      List.map_cons, List.map_nil, List.cons_append, List.nil_append, List.lookup_cons]
    obtain rfl | rfl | rfl | rfl | rfl | rfl := asked <;> simp
    split <;> simp_all [Bit.nets]
  obtain ⟨bits, found, length⟩ := width
  rw [Bank.checkWidth, Cell.bits, found]
  simp only [bind, Except.bind, length, ↓reduceIte]

/-- With one write port, all enable bits are the same net. -/
theorem IsCell.checkEnable_eq_ok
    (isCell : spec.IsCell start cell)
    (single : spec.geometry.writePorts = 1) :
    Bank.checkEnable ((cell.bits? "WR_EN").getD []) = .ok () := by
  have repeated : ∃ bit,
      (cell.bits? "WR_EN").getD [] = List.replicate spec.geometry.width bit := by
    refine ⟨Bit.net (Bit.blocksEnd start spec.geometry.netLengths), ?_⟩
    rw [isCell.bits?]
    simp only [connectionsFrom, literalBits, Geometry.netLengths, Bit.blocks, single, List.map_cons,
      List.map_nil, List.cons_append, List.nil_append, List.lookup_cons, String.reduceBEq,
      Option.map_some, Option.getD_some]
    split <;> simp_all [Bit.nets]
  obtain ⟨bit, enable⟩ := repeated
  rw [enable, Bank.checkEnable, if_pos]
  cases spec.geometry.width <;> simp [Bit.allAre, List.replicate_succ]

/-- Only the sizes and the number of write ports of a generated cell are ever refused. -/
theorem IsCell.check_eq
    (isCell : spec.IsCell start cell) :
    Bank.check cell spec.geometry =
      Bank.checkLimits spec.geometry >>= fun _ => Bank.checkWriters spec.geometry := by
  have readParams : Bank.readParamRules.forM (Bank.checkParam cell) = .ok () :=
    except_forM_of_ok fun _ ruled => isCell.checkParam_eq_ok (List.mem_append_left _ ruled)
  have writeParams : Bank.writeParamRules.forM (Bank.checkParam cell) = .ok () :=
    except_forM_of_ok fun _ ruled => isCell.checkParam_eq_ok (List.mem_append_right _ ruled)
  have literals : Bank.bitRules.forM (Bank.checkBits cell) = .ok () :=
    except_forM_of_ok fun _ ruled => isCell.checkBits_eq_ok ruled
  rw [Bank.check, readParams, writeParams, literals]
  by_cases single : spec.geometry.writePorts = 1
  · have widths : (Bank.widths spec.geometry).forM (Bank.checkWidth cell) = .ok () :=
      except_forM_of_ok fun _ asked => isCell.checkWidth_eq_ok single asked
    rw [widths, isCell.checkEnable_eq_ok single, Bank.checkWriters, if_pos single]
    rfl
  · rw [Bank.checkWriters, if_neg single]
    rfl

/-- The limits that memories must keep to, each with the subject that names it, in the order in which
they are checked. -/
def limits (spec : MemorySpec) : List (String × Bool) := [
  ("address width", spec.addressBits.toInt ≤ 32),
  ("data width", 1 ≤ spec.width.toInt ∧ spec.width.toInt ≤ 32),
  ("memory size", 1 ≤ spec.size.toInt),
  ("write port count", spec.writePorts.toInt ≤ 1)]

/-- The first limit that a specification does not keep to. -/
def violated? (spec : MemorySpec) : Option String :=
  (spec.limits.find? (!·.2)).map (·.1)

/-- The sizes of a small specification are those of its geometry. -/
theorem Small.toInt_eq
    (small : spec.Small)
    (field : Int64)
    (member : field ∈ spec.fields) :
    (field.toNatClampNeg : Int) = field.toInt :=
  Int.toNat_of_nonneg (small field member).1

theorem Small.single_iff
    (small : spec.Small) :
    spec.geometry.writePorts = 1 ↔ spec.writePorts.toInt ≤ 1 := by
  have written := small spec.writePorts (by simp [fields])
  have nonzero : spec.writePorts ≠ 0 → spec.writePorts.toInt ≠ 0 :=
    fun notZero isZero => notZero (Int64.toInt_inj.mp isZero)
  change spec.writers.toInt.toNat = 1 ↔ _
  unfold MemorySpec.writers
  split
  · rename_i zero
    simp [zero]
  · rename_i notZero
    have := nonzero notZero
    omega

/-- A generated cell is refused for the first limit that its specification does not keep to. -/
theorem IsCell.check_cases
    (isCell : spec.IsCell start cell)
    (small : spec.Small) :
    spec.violated? = none ∧ Bank.check cell spec.geometry = .ok () ∨
      ∃ subject message,
        spec.violated? = some subject ∧
          Bank.check cell spec.geometry = .error (Bank.unsupported subject message) := by
  have address : (spec.geometry.addressBits : Int) = _ :=
    small.toInt_eq spec.addressBits (by simp [fields])
  have width : (spec.geometry.width : Int) = _ :=
    small.toInt_eq spec.width (by simp [fields])
  have size : (spec.geometry.size : Int) = _ :=
    small.toInt_eq spec.size (by simp [fields])
  have single := small.single_iff
  rw [isCell.check_eq, Bank.checkLimits]
  by_cases addressFits : spec.addressBits.toInt ≤ 32
  · rw [if_neg (by omega)]
    by_cases widthFits : 1 ≤ spec.width.toInt ∧ spec.width.toInt ≤ 32
    · rw [if_neg (by omega), if_neg (by omega)]
      by_cases sizeFits : 1 ≤ spec.size.toInt
      · rw [if_neg (by omega), Bank.checkWriters]
        by_cases writersFit : spec.writePorts.toInt ≤ 1
        · rw [if_pos (single.mpr writersFit)]
          exact .inl ⟨by simp [violated?, limits, addressFits, widthFits, sizeFits, writersFit], rfl⟩
        · rw [if_neg (fun one => writersFit (single.mp one))]
          exact .inr ⟨"write port count", _,
            by simp [violated?, limits, addressFits, widthFits, sizeFits, writersFit], rfl⟩
      · rw [if_pos (by omega)]
        exact .inr ⟨"memory size", _,
          by simp [violated?, limits, addressFits, widthFits, sizeFits], rfl⟩
    · have subject : spec.violated? = some "data width" := by
        simp [violated?, limits, addressFits, widthFits]
      split
      · exact .inr ⟨"data width", _, subject, rfl⟩
      · rw [if_pos (by omega)]
        exact .inr ⟨"data width", _, subject, rfl⟩
  · rw [if_pos (by omega)]
    exact .inr ⟨"address width", _, by simp [violated?, limits, addressFits], rfl⟩

theorem violated?_eq_none_iff :
    spec.violated? = none ↔
      spec.addressBits.toInt ≤ 32 ∧ (1 ≤ spec.width.toInt ∧ spec.width.toInt ≤ 32) ∧
        1 ≤ spec.size.toInt ∧ spec.writePorts.toInt ≤ 1 := by
  simp [violated?, limits]

/-- The cell of a specification that keeps to the limits is never too long. -/
theorem Small.storable
    (small : spec.Small)
    (supported : spec.violated? = none) :
    spec.geometry.Storable := by
  obtain ⟨addressFits, ⟨-, widthFits⟩, -, writersFit⟩ := violated?_eq_none_iff.mp supported
  have bounded (field : Int64) (member : field ∈ spec.fields) :
      (field.toNatClampNeg : Int) = field.toInt ∧ field.toInt < 0x80000000 :=
    ⟨small.toInt_eq field member, (small field member).2⟩
  have address : spec.geometry.addressBits ≤ 32 := by
    have := bounded spec.addressBits (by simp [fields])
    simp only [geometry]
    omega
  have width : spec.geometry.width ≤ 32 := by
    have := bounded spec.width (by simp [fields])
    simp only [geometry]
    omega
  have size : spec.geometry.size ≤ 0x80000000 := by
    have := bounded spec.size (by simp [fields])
    simp only [geometry]
    omega
  have reads : spec.geometry.readPorts ≤ 0x80000000 := by
    have := bounded spec.readPorts (by simp [fields])
    simp only [geometry]
    omega
  have single := small.single_iff.mpr writersFit
  have contents := Nat.mul_le_mul size width
  have addresses := Nat.mul_le_mul reads address
  have data := Nat.mul_le_mul reads width
  constructor
  · simp only [List.forall_mem_cons, List.not_mem_nil, false_imp_iff, implies_true, and_true, single,
      maxDigits]
    omega
  · simp only [List.forall_mem_cons, List.not_mem_nil, false_imp_iff, implies_true, and_true, single,
      Nets.maxLength]
    omega

theorem IsCell.geometry_ofCell
    (isCell : spec.IsCell start cell)
    (small : spec.Small)
    (storable : spec.geometry.Storable) :
    Geometry.ofCell cell = .ok spec.geometry := by
  obtain ⟨nonnegative, fits⟩ := small.repeatedParams
  have given := (params_eq nonnegative).trans (if_pos (fits.mpr storable.digits))
  exact MemorySpec.geometry_ofCell small isCell.type given isCell.parameters

/-- Whatever nets were allocated before, a specification gives a cell of its own nets, numbered in
order, and the memory of the cell is built if the specification keeps to the limits. Otherwise the
memory is refused for the first limit that is not kept, and the design stays as it is. The only other
end is that a parameter or a connection would be too long to be stored, and this happens only beyond
the limits. -/
theorem generated_memory_accepted
    (small : spec.Small)
    (counts : List Int)
    (design : Design) :
    let nets := Nets.afterRequests counts
    Ensures (spec.cell.run nets)
      (fun cell _ =>
        spec.geometry.Storable ∧
          cell.Numbered spec.geometry.width nets.next spec.geometry.netCount ∧
            Ensures (Design.addMemory cell design)
              (fun _ _ => spec.violated? = none)
              (fun failure later =>
                later = design ∧
                  ∃ subject message,
                    spec.violated? = some subject ∧
                      failure = Bank.unsupported subject message))
      (fun failure _ =>
        ¬spec.geometry.Storable ∧ spec.violated? ≠ none ∧
          failure = .ofCrash .impossibleLength) := by
  intro nets
  refine (cell_ensures small nets).mono ?_ ?_
  · rintro cell - ⟨storable, isCell⟩
    refine ⟨storable, isCell.numbered (Nets.two_le_next counts), ?_⟩
    have parsed := isCell.geometry_ofCell small storable
    rcases isCell.check_cases small with ⟨supported, checked⟩ | ⟨subject, message, first, refused⟩
    · obtain ⟨bank, accepted⟩ : ∃ bank, Bank.ofCell cell design.board.size = .ok bank := by
        rw [Bank.ofCell, parsed]
        simp only [bind, Except.bind, checked]
        exact ⟨_, rfl⟩
      rw [Design.addMemory_run accepted]
      exact supported
    · have rejected : Bank.ofCell cell design.board.size =
          .error (Bank.unsupported subject message) := by
        rw [Bank.ofCell, parsed]
        simp only [bind, Except.bind, refused]
      rw [Design.addMemory_run_of_error rejected]
      exact ⟨rfl, subject, message, first, rfl⟩
  · rintro failure - ⟨unstorable, crashed⟩
    exact ⟨unstorable, fun supported => unstorable (small.storable supported), crashed⟩

/-- After other requests, one of them refused, a memory of four rows takes 35 nets from number seven on
and is built. With 33 address bits and no rows it is refused for its address width. -/
theorem generated_memory_accepted_four_rows :
    let nets := Nets.afterRequests [5, -1]
    Ensures ((⟨3, 8, 4, 2, 2, 0⟩ : MemorySpec).cell.run nets)
        (fun cell _ =>
          cell.Numbered 8 7 35 ∧
            Ensures (Design.addMemory cell {}) (fun _ _ => True) (fun _ _ => False))
        (fun _ _ => False) ∧
      Ensures ((⟨33, 8, 0, 2, 2, 3⟩ : MemorySpec).cell.run nets)
        (fun cell _ =>
          Ensures (Design.addMemory cell {})
            (fun _ _ => False)
            (fun failure _ => ∃ message, failure = Bank.unsupported "address width" message))
        (fun _ _ => False) := by
  have small : (⟨3, 8, 4, 2, 2, 0⟩ : MemorySpec).Small := by decide
  have alsoSmall : (⟨33, 8, 0, 2, 2, 3⟩ : MemorySpec).Small := by decide
  refine ⟨(generated_memory_accepted small [5, -1] {}).mono ?_ ?_,
    (generated_memory_accepted alsoSmall [5, -1] {}).mono ?_ ?_⟩
  · rintro cell - ⟨-, numbered, built⟩
    refine ⟨numbered, built.mono (fun _ _ _ => trivial) ?_⟩
    rintro failure _ ⟨-, subject, message, violated, -⟩
    cases violated
  · rintro failure - ⟨-, violated, -⟩
    exact violated rfl
  · rintro cell - ⟨-, -, refused⟩
    refine refused.mono (fun _ _ supported => by cases supported) ?_
    rintro failure _ ⟨-, subject, message, violated, rfl⟩
    cases violated
    exact ⟨message, rfl⟩
  · rintro failure - ⟨unstorable, -, -⟩
    exact unstorable (by decide)

/-- A word of 2^31 - 1 bits is not supported, but the memory is never refused for it: the initial
contents of as many rows cannot be stored. -/
theorem oversized_memory_crashes :
    let spec : MemorySpec := ⟨2, 0x7fffffff, 0x7fffffff, 0, 1, 0⟩
    spec.Small ∧ spec.violated? = some "data width" ∧
      Ensures (spec.cell.run {}) (fun _ _ => False)
        (fun failure _ => failure = .ofCrash .impossibleLength) := by
  decide +kernel

end CircuitNetwork.MemorySpec
