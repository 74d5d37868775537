import CircuitNetwork.Netlist.Codec
import CircuitNetwork.Proofs.Json.Text
import CircuitNetwork.Proofs.Netlist.MemoryCell

namespace CircuitNetwork

/-!
# Cells through JSON

What is written is read back unchanged. Of the values that are read, a bit vector
is written as it was, and a parameter is written in the one form that reads back.
-/

/-- The JSON values that stand for a bit. -/
def Json.IsBit (json : Json) : Prop :=
  json ∈ [str "0", str "1", str "x", str "z"] ∨
    ∃ number, json = int number ∧ 2 ≤ number ∧ number ≤ 0x7fffffffffffffff

namespace Bit

/-- The bits that can be written: the four literals and the net numbers of 64 bits. -/
def Writable (bit : Bit) : Prop :=
  -2 ≤ bit.code ∧ bit.code < 0x8000000000000000

instance (bit : Bit) : Decidable bit.Writable :=
  inferInstanceAs (Decidable (_ ∧ _))

theorem map_toJson_literals :
    [zero, one, x, z].map toJson = [Json.str "0", .str "1", .str "x", .str "z"] :=
  rfl

theorem toJson_net
    {number : Int}
    (isNet : 2 ≤ number) :
    toJson ⟨number⟩ = .int number := by
  simp [toJson, isConst, Int.not_lt.mpr isNet]

theorem writable_literal :
    ∀ bit ∈ [zero, one, x, z], bit.Writable := by
  decide

theorem writable_net
    {number : Int}
    (isNet : 2 ≤ number)
    (fits : fits64 number) :
    Writable ⟨number⟩ := by
  simp only [fits64, Bool.and_eq_true, decide_eq_true_eq] at fits
  exact ⟨Int.le_trans (by decide) isNet, fits.2⟩

theorem Writable.fits64
    {bit : Bit}
    (writable : bit.Writable) :
    fits64 bit.code := by
  simp only [CircuitNetwork.fits64, Bool.and_eq_true, decide_eq_true_eq]
  exact ⟨Int.le_trans (by decide) writable.1, writable.2⟩

theorem Writable.cases
    {bit : Bit}
    (writable : bit.Writable) :
    bit ∈ [zero, one, x, z] ∨ 2 ≤ bit.code := by
  obtain ⟨code⟩ := bit
  simp only [List.mem_cons, z, x, zero, one, Bit.mk.injEq, List.not_mem_nil]
  have low : -2 ≤ code := writable.1
  omega

/-- A bit is read from the value that writes it and from no other. -/
theorem ofJson_eq_ok_iff
    {json : Json}
    {bit : Bit} :
    ofJson json = .ok bit ↔ bit.Writable ∧ json = bit.toJson := by
  constructor
  · intro read
    unfold ofJson at read
    split at read
    case h_1 | h_2 | h_3 | h_4 =>
      cases read
      exact ⟨by decide, rfl⟩
    case h_5 | h_6 | h_8 =>
      cases read
    case h_7 number =>
      split at read
      · cases read
      · rename_i fits
        split at read
        · cases read
        · rename_i isNet
          cases read
          have isNet := Int.not_lt.mp isNet
          exact ⟨writable_net isNet (by simpa using fits), (toJson_net isNet).symm⟩
  · rintro ⟨writable, rfl⟩
    rcases writable.cases with literal | isNet
    · simp only [List.mem_cons, List.not_mem_nil, or_false] at literal
      rcases literal with rfl | rfl | rfl | rfl <;> rfl
    · rw [toJson_net isNet]
      simp [ofJson, writable.fits64, Int.not_lt.mpr isNet]

theorem isBit_iff
    {json : Json} :
    json.IsBit ↔ ∃ bit : Bit, bit.Writable ∧ json = bit.toJson := by
  rw [Json.IsBit, ← map_toJson_literals]
  constructor
  · rintro (literal | ⟨number, rfl, isNet, fits⟩)
    · obtain ⟨bit, member, rfl⟩ := List.mem_map.mp literal
      exact ⟨bit, writable_literal bit member, rfl⟩
    · exact ⟨⟨number⟩, ⟨Int.le_trans (by decide) isNet, Int.lt_add_one_of_le fits⟩,
        (toJson_net isNet).symm⟩
  · rintro ⟨bit, writable, rfl⟩
    rcases writable.cases with literal | isNet
    · exact .inl (List.mem_map_of_mem literal)
    · exact .inr ⟨bit.code, toJson_net isNet, isNet, Int.le_of_lt_add_one writable.2⟩

/-- A vector is read from the items that write it and from no others. -/
theorem mapM_ofJson_eq_ok_iff
    {items : List Json}
    {bits : List Bit} :
    items.mapM ofJson = .ok bits ↔ (∀ bit ∈ bits, bit.Writable) ∧ items = bits.map toJson := by
  induction items generalizing bits with
  | nil =>
      simp only [List.mapM_nil, pure, Except.pure, Except.ok.injEq, List.nil_eq,
        List.map_eq_nil_iff]
      constructor
      · rintro rfl
        simp
      · exact And.right
  | cons item rest inductionHypothesis =>
      simp only [List.mapM_cons, except_bind_eq_ok, ofJson_eq_ok_iff, inductionHypothesis, pure,
        Except.pure, Except.ok.injEq]
      constructor
      · rintro ⟨bit, ⟨writable, rfl⟩, others, ⟨writableOthers, rfl⟩, rfl⟩
        exact ⟨List.forall_mem_cons.mpr ⟨writable, writableOthers⟩, rfl⟩
      · rintro ⟨writable, same⟩
        obtain ⟨bit, others, rfl, rfl, rfl⟩ := List.map_eq_cons_iff.mp same.symm
        obtain ⟨first, remaining⟩ := List.forall_mem_cons.mp writable
        exact ⟨bit, ⟨first, rfl⟩, others, ⟨remaining, rfl⟩, rfl⟩

theorem vectorOfJson_arr_eq_ok_iff
    {items : List Json}
    {bits? : Option (List Bit)} :
    vectorOfJson (.arr items) = .ok bits? ↔
      ∃ bits,
        bits? = some bits ∧ (∀ bit ∈ bits, bit.Writable) ∧ .arr items = vectorToJson bits := by
  have mapped : vectorOfJson (.arr items) = .ok bits? ↔
      ∃ bits, bits? = some bits ∧ items.mapM ofJson = .ok bits := by
    rw [vectorOfJson]
    cases items.mapM ofJson <;> simp [Except.map, eq_comm]
  simp only [mapped, mapM_ofJson_eq_ok_iff, vectorToJson, Json.ofList, Json.arr.injEq]

theorem exists_vectorOfJson_arr_iff
    {items : List Json} :
    (∃ bits?, vectorOfJson (.arr items) = .ok bits?) ↔ ∀ item ∈ items, item.IsBit := by
  simp only [vectorOfJson_arr_eq_ok_iff, isBit_iff, vectorToJson, Json.ofList, Json.arr.injEq]
  constructor
  · rintro ⟨-, bits, -, writable, rfl⟩ item member
    obtain ⟨bit, bitMember, rfl⟩ := List.mem_map.mp member
    exact ⟨bit, writable bit bitMember, rfl⟩
  · intro stand
    choose! bitOf writable same using stand
    refine ⟨_, items.map bitOf, rfl, ?_, ?_⟩
    · rintro _ member
      obtain ⟨item, itemMember, rfl⟩ := List.mem_map.mp member
      exact writable item itemMember
    · rw [List.map_map]
      exact (List.map_id' items).symm.trans (List.map_congr_left same)

theorem vectorOfJson_vectorToJson
    {bits : List Bit}
    (writable : ∀ bit ∈ bits, bit.Writable) :
    vectorOfJson (vectorToJson bits) = .ok (some bits) :=
  vectorOfJson_arr_eq_ok_iff.mpr ⟨bits, rfl, writable, rfl⟩

end Bit

theorem Param.ofJson_toJson
    (param : Param) :
    ofJson param.toJson = .ok param :=
  rfl

namespace Dict

variable {α : Type}

theorem eq_of_entries
    {dict other : Dict α}
    (same : dict.entries = other.entries) :
    dict = other := by
  cases dict
  cases other
  cases same
  rfl

theorem ofList_entries
    (dict : Dict α) :
    ofList dict.entries = dict :=
  eq_of_entries (entries_foldl_set dict.entries empty dict.distinct)

/-- Members that are each read as an entry are read as the entries, in order. -/
theorem foldlM_entries
    {ε σ : Type}
    {encode : α → Json}
    {read : σ → String × Json → Except ε σ}
    {put : Dict α → σ}
    {entries : List (String × α)}
    (reads :
      ∀ entry ∈ entries, ∀ known,
        read (put known) (entry.1, encode entry.2) = .ok (put (known.set entry.1 entry.2)))
    (known : Dict α) :
    (entries.map fun entry => (entry.1, encode entry.2)).foldlM read (put known) =
      .ok (put (entries.foldl (fun dict entry => dict.set entry.1 entry.2) known)) := by
  induction entries generalizing known with
  | nil =>
      rfl
  | cons entry rest inductionHypothesis =>
      obtain ⟨first, others⟩ := List.forall_mem_cons.mp reads
      rw [List.map_cons, List.foldlM_cons, first known]
      exact inductionHypothesis others _

/-- All members of the object that a dictionary is written as are read as the dictionary. -/
theorem foldlM_members
    {ε σ : Type}
    (encode : α → Json)
    (read : σ → String × Json → Except ε σ)
    (put : Dict α → σ)
    (dict : Dict α)
    (reads :
      ∀ entry ∈ dict.entries, ∀ known,
        read (put known) (entry.1, encode entry.2) = .ok (put (known.set entry.1 entry.2))) :
    (dict.entries.map fun entry => (entry.1, encode entry.2)).foldlM read (put empty) =
      .ok (put dict) := by
  rw [foldlM_entries reads empty]
  exact congrArg (fun read => Except.ok (put read)) dict.ofList_entries

end Dict

namespace Cell

/-- Every bit of the connections can be written. -/
def Writable (cell : Cell) : Prop :=
  ∀ dict ∈ cell.connections, ∀ entry ∈ dict.entries, ∀ bits ∈ entry.2, ∀ bit ∈ bits, bit.Writable

instance (cell : Cell) : Decidable cell.Writable :=
  inferInstanceAs (Decidable (∀ dict ∈ cell.connections, _))

theorem readParams_toJson
    (cell other : Cell)
    (fresh : cell.parameters = none) :
    cell.readParams (.ofOption (dictToJson Param.toJson) other.parameters) =
      .ok { cell with parameters := other.parameters } := by
  cases other.parameters with
  | none => rfl
  | some dict =>
      rw [Json.ofOption, dictToJson, readParams, fresh]
      exact Dict.foldlM_members Param.toJson readParam
        (fun read => { cell with parameters := some read }) dict fun _ _ _ => rfl

theorem readConnections_toJson
    (cell : Cell)
    {other : Cell}
    (fresh : cell.connections = none)
    (writable : other.Writable) :
    cell.readConnections (.ofOption (dictToJson (.ofOption Bit.vectorToJson)) other.connections) =
      .ok { cell with connections := other.connections } := by
  cases given : other.connections with
  | none => rfl
  | some dict =>
      rw [Json.ofOption, dictToJson, readConnections, fresh]
      refine Dict.foldlM_members (.ofOption Bit.vectorToJson) readConnection
        (fun read => { cell with connections := some read }) dict fun entry member known => ?_
      have read : Bit.vectorOfJson (.ofOption Bit.vectorToJson entry.2) = .ok entry.2 := by
        cases bits : entry.2 with
        | none => rfl
        | some vector =>
            exact Bit.vectorOfJson_vectorToJson (writable dict given entry member vector bits)
      rw [readConnection, read]
      rfl

theorem readMember_type
    (cell : Cell)
    (json : Json) :
    cell.readMember ("type", json) = cell.readType json := by
  have own : sameKey "type" "type" = true := by decide
  simp only [readMember, own, ↓reduceIte]

theorem readMember_parameters
    (cell : Cell)
    (json : Json) :
    cell.readMember ("parameters", json) = cell.readParams json := by
  have other : sameKey "parameters" "type" = false := by decide
  have own : sameKey "parameters" "parameters" = true := by decide
  simp only [readMember, other, own, ↓reduceIte, Bool.false_eq_true]

theorem readMember_connections
    (cell : Cell)
    (json : Json) :
    cell.readMember ("connections", json) = cell.readConnections json := by
  have other : sameKey "connections" "type" = false := by decide
  have another : sameKey "connections" "parameters" = false := by decide
  have own : sameKey "connections" "connections" = true := by decide
  simp only [readMember, other, another, own, ↓reduceIte, Bool.false_eq_true]

/-- A cell is read from what it is written as. -/
theorem ofJson_toJson
    {cell : Cell}
    (writable : cell.Writable) :
    ofJson cell.toJson = .ok cell := by
  have withParams := readParams_toJson { type := cell.type } cell rfl
  have withConnections :=
    readConnections_toJson { type := cell.type, parameters := cell.parameters } rfl writable
  refine except_bind_eq_ok.mpr ⟨{ type := cell.type }, readMember_type _ _, ?_⟩
  refine except_bind_eq_ok.mpr ⟨_, (readMember_parameters _ _).trans withParams, ?_⟩
  exact except_bind_eq_ok.mpr ⟨_, (readMember_connections _ _).trans withConnections, rfl⟩

theorem legible_dictToJson
    {α : Type}
    {encode : α → Json}
    (legible : ∀ value, (encode value).Legible)
    (dict : Dict α) :
    (dictToJson encode dict).Legible := by
  apply Json.legible_obj
  intro member written
  obtain ⟨entry, -, rfl⟩ := List.mem_map.mp written
  exact legible entry.2

theorem legible_ofOption
    {α : Type}
    {encode : α → Json}
    (legible : ∀ value, (encode value).Legible)
    (value? : Option α) :
    (Json.ofOption encode value?).Legible := by
  cases value? with
  | none => exact Json.legible_null
  | some value => exact legible value

theorem legible_vectorToJson
    (bits : List Bit) :
    (Bit.vectorToJson bits).Legible := by
  apply Json.legible_arr
  intro item written
  obtain ⟨bit, -, rfl⟩ := List.mem_map.mp written
  rw [Bit.toJson]
  split
  · exact Json.legible_str _
  · exact Json.legible_int _

theorem legible_toJson
    (cell : Cell) :
    cell.toJson.Legible := by
  apply Json.legible_obj
  simp only [List.forall_mem_cons, List.not_mem_nil, false_implies, implies_true, and_true]
  exact ⟨Json.legible_str _, legible_ofOption (legible_dictToJson fun _ => Json.legible_str _) _,
    legible_ofOption (legible_dictToJson (legible_ofOption legible_vectorToJson)) _⟩

/-- The text of a cell is read as the cell. An array that is read as bits is written as it was, and
the arrays that are read are those whose items all stand for a bit. A parameter that is read, in
whatever form, is written so that it is read again. -/
theorem json_round_trip :
    (∀ cell : Cell, cell.Writable →
      (Json.parse? cell.toJson.compact).map ofJson = some (.ok cell)) ∧
    (∀ items bits?, Bit.vectorOfJson (.arr items) = .ok bits? →
      ∃ bits, bits? = some bits ∧ Bit.vectorToJson bits = .arr items) ∧
    (∀ json param, Param.ofJson json = .ok param → Param.ofJson param.toJson = .ok param) ∧
    ∀ items,
      (∃ bits?, Bit.vectorOfJson (.arr items) = .ok bits?) ↔ ∀ item ∈ items, item.IsBit := by
  refine ⟨?_, ?_, fun _ param _ => Param.ofJson_toJson param,
    fun _ => Bit.exists_vectorOfJson_arr_iff⟩
  · intro cell writable
    rw [Json.parse?_compact cell.legible_toJson, Option.map_some, ofJson_toJson writable]
  · intro items bits? read
    obtain ⟨bits, same, -, written⟩ := Bit.vectorOfJson_arr_eq_ok_iff.mp read
    exact ⟨bits, same, written.symm⟩

/-- A cell with a type that needs escapes, all kinds of bits and a connection without bits. -/
theorem json_round_trip_escaped_type :
    let cell : Cell := {
      type := "$<\"\t\\é>"
      parameters := some (.ofList [("WIDTH", ⟨"101"⟩), ("", ⟨"x&"⟩)])
      connections := some (.ofList [
        ("A", some [.z, .x, .zero, .one, .net 2, .net 0x7fffffffffffffff]), ("B", none)]) }
    cell.Writable ∧ (Json.parse? cell.toJson.compact).map ofJson = some (.ok cell) ∧
      (∃ bits, Bit.vectorToJson bits = .arr [.str "x", .int 5]) ∧
      Param.ofJson (Param.ofInt 5).toJson = .ok (Param.ofInt 5) := by
  obtain ⟨reads, writes, params, -⟩ := json_round_trip
  obtain ⟨bits, -, written⟩ := writes [.str "x", .int 5] _ rfl
  exact ⟨by decide, reads _ (by decide), ⟨bits, written⟩, params (.int 5) _ rfl⟩

end Cell

end CircuitNetwork
