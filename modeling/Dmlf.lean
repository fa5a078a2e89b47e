import Dmlf.LTS.Basic
import Dmlf.Table.Basic
import Dmlf.Table.Stored
import Dmlf.Table.Query
import Dmlf.Table.Aggregate
import Dmlf.Ledger.Basic
import Dmlf.Ledger.Uses
import Dmlf.Sort.Stable
import Dmlf.Text.Basic
import Dmlf.Text.Python
import Dmlf.Text.Format
import Dmlf.Text.Json
import Dmlf.Text.Lines
import Dmlf.Registry.Basic
import Dmlf.Registry.Schema
import Dmlf.Registry.Statements
import Dmlf.Manager.Queue
import Dmlf.Manager.Allocator
import Dmlf.Manager.Basic
import Dmlf.Manager.Tasks
import Dmlf.Manager.Lifecycle
import Dmlf.Manager.Serial
import Dmlf.Manager.Effects
import Dmlf.Manager.Rows
import Dmlf.Manager.Calls
import Dmlf.Manager.CommandQueues
import Dmlf.Manager.Outgoing
import Dmlf.Manager.Actions
import Dmlf.Manager.QueueOrder
import Dmlf.Manager.Line
import Dmlf.Manager.Faults
import Dmlf.Manager.Errors
import Dmlf.Agent.Basic
import Dmlf.Agent.Session
import Dmlf.Agent.Launches
import Dmlf.Agent.Launcher
import Dmlf.Agent.Hardware
import Dmlf.Auth.Interceptors
import Dmlf.Auth.Binding
import Dmlf.Auth.Credentials
import Dmlf.Auth.Token
import Dmlf.Cluster.Basic
import Dmlf.Cluster.Commands
import Dmlf.Cluster.Refinement
import Dmlf.Cluster.Log
import Dmlf.Jobs.NoLoss
import Dmlf.Jobs.Retries
import Dmlf.Jobs.Warnings
import Dmlf.Jobs.Terminal
import Dmlf.Jobs.Duplicates
import Dmlf.Jobs.Pass
import Dmlf.Jobs.Specification
import Dmlf.Jobs.Migration
import Dmlf.Agent.Torchrun
import Dmlf.Jobs.QueueGauge
import Dmlf.Jobs.RestartOrder
import Dmlf.Jobs.Fifo
import Dmlf.Jobs.WorldSize
import Dmlf.Capacity.Basic
import Dmlf.Jobs.Greedy
import Dmlf.Jobs.Rendezvous
import Dmlf.Jobs.MonitorPass
import Dmlf.Jobs.ReportsCommute
import Dmlf.Jobs.RunningGauge
import Dmlf.Jobs.Timestamps
import Dmlf.Jobs.Blocking
import Dmlf.Jobs.Drain
import Dmlf.Loop.Basic
import Dmlf.Pool.Basic
import Dmlf.Manager.Server
import Dmlf.Manager.Unheard
import Dmlf.Manager.Jam
import Dmlf.Jobs.SchedulerThread
import Dmlf.Manager.OfflineTimeout
import Dmlf.Autoscaler.Policy
import Dmlf.Autoscaler.Cooldown
import Dmlf.Autoscaler.Decisions
import Dmlf.Training.Trainer
import Dmlf.Training.Resume
import Dmlf.Training.Loss
import Dmlf.Cluster.Delivery
import Dmlf.Cluster.Crash
import Dmlf.Cluster.Origin
import Dmlf.Cluster.Payload
import Dmlf.Cluster.Lost
import Dmlf.Cluster.Dashboard
import Dmlf.Cluster.Allocation
import Dmlf.Cluster.AllocationCalls
import Dmlf.Cluster.Failover
import Dmlf.Cluster.Agreement
import Dmlf.Cluster.Attempts
