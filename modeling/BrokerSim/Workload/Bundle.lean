/-
Bundles: the machines and tasks of one subordinate. A bundle depends on its class and its first ids alone; a numbering
hands out ids over a whole run, so bundles that follow each other share none.
-/
import BrokerSim.Execution.Task
import BrokerSim.Workload.Sizing

namespace BrokerSim

/-- what one subordinate works with -/
structure Bundle where
  workload : WorkloadClass
  vms : List Vm
  tasks : List Task
  deriving Repr, DecidableEq

/-- name of the virtual machine monitor of every machine -/
def standardVmm : String := "Xen"

/-- a machine of these sizes -/
def Sizing.vm (s : Sizing) (id : Nat) : Vm :=
  { id, mipsPerCore := s.mipsPerCore, cores := s.coresPerVm, ramMb := s.ramMb, bandwidth := s.bandwidth,
    diskMb := s.diskMb, vmm := standardVmm }

/-- task `index` of these sizes -/
def Sizing.task (s : Sizing) (id index : Nat) : Task :=
  { id, length := s.taskLength index, cores := s.coresPerTask, inputSize := s.inputSize, outputSize := s.outputSize }

/-- the bundle of a class, its machines and tasks numbered from the given ids on -/
def WorkloadClass.bundle (c : WorkloadClass) (firstVm firstTask : Nat) : Bundle :=
  { workload := c
    vms := (List.range c.sizing.vmCount).map fun i => c.sizing.vm (firstVm + i)
    tasks := (List.range c.sizing.taskCount).map fun i => c.sizing.task (firstTask + i) i }

/-- the next free ids -/
structure Numbering where
  nextVm : Nat := 0
  nextTask : Nat := 0
  deriving Repr, DecidableEq

/-- the next bundle of a class -/
def Numbering.allocate (n : Numbering) (c : WorkloadClass) : Bundle × Numbering :=
  let b := c.bundle n.nextVm n.nextTask
  (b, { nextVm := n.nextVm + b.vms.length, nextTask := n.nextTask + b.tasks.length })

end BrokerSim
