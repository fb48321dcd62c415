/-
How much each workload class gets: the standard table. A class without an entry gets what the initial class gets.
-/
import BrokerSim.Workload.Class

namespace BrokerSim

/-- the sizes of the machines and tasks of one class -/
structure Sizing where
  vmCount : Nat
  mipsPerCore : Nat
  coresPerVm : Nat
  ramMb : Nat
  bandwidth : Nat
  diskMb : Nat
  taskCount : Nat
  /-- length of the first task, in million instructions -/
  baseTaskLength : Nat
  /-- how much longer each further task is -/
  lengthIncrement : Nat
  coresPerTask : Nat
  inputSize : Nat
  outputSize : Nat
  deriving Repr, DecidableEq

namespace Sizing

/-- length of task `index` of a bundle -/
def taskLength (s : Sizing) (index : Nat) : Nat := s.baseTaskLength + index * s.lengthIncrement

def light : Sizing :=
  { vmCount := 2, mipsPerCore := 1000, coresPerVm := 1, ramMb := 512, bandwidth := 1000, diskMb := 10000
    taskCount := 3, baseTaskLength := 250000, lengthIncrement := 50000, coresPerTask := 1
    inputSize := 300, outputSize := 300 }

def medium : Sizing :=
  { vmCount := 3, mipsPerCore := 1500, coresPerVm := 2, ramMb := 1024, bandwidth := 2000, diskMb := 20000
    taskCount := 5, baseTaskLength := 500000, lengthIncrement := 50000, coresPerTask := 2
    inputSize := 500, outputSize := 500 }

def heavy : Sizing :=
  { vmCount := 4, mipsPerCore := 2000, coresPerVm := 2, ramMb := 2048, bandwidth := 3000, diskMb := 30000
    taskCount := 7, baseTaskLength := 1000000, lengthIncrement := 50000, coresPerTask := 2
    inputSize := 800, outputSize := 800 }

def initial : Sizing :=
  { vmCount := 2, mipsPerCore := 1000, coresPerVm := 1, ramMb := 512, bandwidth := 1000, diskMb := 10000
    taskCount := 3, baseTaskLength := 300000, lengthIncrement := 100000, coresPerTask := 1
    inputSize := 300, outputSize := 300 }

def peak : Sizing :=
  { vmCount := 4, mipsPerCore := 2000, coresPerVm := 2, ramMb := 1024, bandwidth := 2000, diskMb := 20000
    taskCount := 6, baseTaskLength := 600000, lengthIncrement := 100000, coresPerTask := 2
    inputSize := 500, outputSize := 500 }

def late : Sizing :=
  { vmCount := 3, mipsPerCore := 1500, coresPerVm := 1, ramMb := 768, bandwidth := 1500, diskMb := 15000
    taskCount := 4, baseTaskLength := 450000, lengthIncrement := 100000, coresPerTask := 1
    inputSize := 400, outputSize := 400 }

end Sizing

/-- the sizes of a class -/
def WorkloadClass.sizing : WorkloadClass → Sizing
  | light => .light
  | medium => .medium
  | heavy => .heavy
  | initial => .initial
  | peak => .peak
  | late => .late
  | unrecognized _ => .initial

end BrokerSim
