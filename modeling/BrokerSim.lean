import BrokerSim.Main
import BrokerSim.Proofs.Accounting
import BrokerSim.Proofs.Accounts
import BrokerSim.Proofs.Agenda
import BrokerSim.Proofs.Batches
import BrokerSim.Proofs.Books
import BrokerSim.Proofs.Broker
import BrokerSim.Proofs.Cancellation
import BrokerSim.Proofs.Clock
import BrokerSim.Proofs.Conduct
import BrokerSim.Proofs.Finality
import BrokerSim.Proofs.Heap
import BrokerSim.Proofs.JsonText
import BrokerSim.Proofs.Kernel.Beat
import BrokerSim.Proofs.Kernel.Calls
import BrokerSim.Proofs.Kernel.Change
import BrokerSim.Proofs.Kernel.Chronicle
import BrokerSim.Proofs.Kernel.Discretion
import BrokerSim.Proofs.Kernel.Drivers
import BrokerSim.Proofs.Kernel.Failing
import BrokerSim.Proofs.Kernel.Legs
import BrokerSim.Proofs.Kernel.Lifecycle
import BrokerSim.Proofs.Kernel.Moves
import BrokerSim.Proofs.Kernel.Order
import BrokerSim.Proofs.Kernel.Outcome
import BrokerSim.Proofs.Kernel.Pause
import BrokerSim.Proofs.Kernel.Pulse
import BrokerSim.Proofs.Kernel.Reaction
import BrokerSim.Proofs.Kernel.Registry
import BrokerSim.Proofs.Kernel.Spawning
import BrokerSim.Proofs.Kernel.Twins
import BrokerSim.Proofs.Kernel.Unbroken
import BrokerSim.Proofs.Kernel.Walk
import BrokerSim.Proofs.Labels
import BrokerSim.Proofs.Numbering
import BrokerSim.Proofs.Numerals
import BrokerSim.Proofs.Overflow
import BrokerSim.Proofs.Patience
import BrokerSim.Proofs.Polling
import BrokerSim.Proofs.Provided
import BrokerSim.Proofs.Quiet
import BrokerSim.Proofs.Ratio
import BrokerSim.Proofs.Records
import BrokerSim.Proofs.Reports
import BrokerSim.Proofs.Requests
import BrokerSim.Proofs.Rota
import BrokerSim.Proofs.Scenario
import BrokerSim.Proofs.Seclusion
import BrokerSim.Proofs.Settings
import BrokerSim.Proofs.Solo
import BrokerSim.Proofs.Strategies
import BrokerSim.Proofs.Sum
import BrokerSim.Proofs.Tasks
import BrokerSim.Proofs.Timeline
import BrokerSim.Proofs.Verdict
import BrokerSim.Settings.Printer
import BrokerSim.Standin.Collaborator
import BrokerSim.Standin.Saboteur
import BrokerSim.Standin.Script
