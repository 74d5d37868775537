import CircuitNetwork.Main
import CircuitNetwork.Proofs.Circuit.Histories
import CircuitNetwork.Proofs.Circuit.Value
import CircuitNetwork.Proofs.Circuit.Workers
import CircuitNetwork.Proofs.Compilation
import CircuitNetwork.Proofs.Generator.Blueprint
import CircuitNetwork.Proofs.Generator.Emission
import CircuitNetwork.Proofs.Generator.Precedence
import CircuitNetwork.Proofs.Groups.Operations
import CircuitNetwork.Proofs.Groups.Order
import CircuitNetwork.Proofs.Groups.PassThrough
import CircuitNetwork.Proofs.Memory.Acceptance
import CircuitNetwork.Proofs.Memory.Buses
import CircuitNetwork.Proofs.Memory.Refinement
import CircuitNetwork.Proofs.Memory.Safety
import CircuitNetwork.Proofs.Netlist.Codec
import CircuitNetwork.Proofs.Netlist.Geometry
import CircuitNetwork.Proofs.Record
import CircuitNetwork.Proofs.Synthesis.Colors
import CircuitNetwork.Proofs.Synthesis.Order
import CircuitNetwork.Proofs.Synthesis.Table
import CircuitNetwork.Proofs.Wire.Components
import CircuitNetwork.Proofs.Workbench.Emission
import CircuitNetwork.Workbench
import CircuitNetwork.Proofs.Combinator.Power
import CircuitNetwork.Proofs.Groups.Ranks
