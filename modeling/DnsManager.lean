import DnsManager.Api.Providers
import DnsManager.Spec.ApplyOrder
import DnsManager.Spec.AtMostOnce
import DnsManager.Spec.BindingCreation
import DnsManager.Spec.ChangesetExecutable
import DnsManager.Spec.ChangesetOutcome
import DnsManager.Spec.DesiredHash
import DnsManager.Spec.Durability
import DnsManager.Spec.Envelope
import DnsManager.Spec.FreshObservation
import DnsManager.Spec.HostedChangesets
import DnsManager.Spec.HostedRows
import DnsManager.Spec.HostedWrites
import DnsManager.Spec.LastShown
import DnsManager.Spec.MxValues
import DnsManager.Spec.ObservedInSync
import DnsManager.Spec.RecordCorrect
import DnsManager.Spec.RecordCreation
import DnsManager.Spec.RecordIdentity
import DnsManager.Spec.Redaction
import DnsManager.Spec.Requested
import DnsManager.Spec.RetryCorrect
import DnsManager.Spec.RetryCounter
import DnsManager.Spec.RollbackAtomicity
import DnsManager.Spec.RollbackCorrect
import DnsManager.Spec.RollbackFootprint
import DnsManager.Spec.Route53Delete
import DnsManager.Spec.Route53Map
import DnsManager.Spec.Route53WriteBack
