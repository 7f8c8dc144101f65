import SectionStore.Text.Utf8
import SectionStore.Text.WhiteSpace
import SectionStore.Text.Integer
import SectionStore.Text.Quoted
import SectionStore.Text.Cut
import SectionStore.Markup.Name
import SectionStore.Markup.Escape
import SectionStore.Markup.Token.Scan
import SectionStore.Markup.Reader
import SectionStore.Markup.Fragment
import SectionStore.Markup.Value
import SectionStore.FileTable
import SectionStore.DataVersion
import SectionStore.Cipher
import SectionStore.Envelope.Writer
import SectionStore.Envelope.Parser
import SectionStore.Provider.Memory
import SectionStore.Registry.Dispatch
import SectionStore.Service
import SectionStore.Main
import SectionStore.Store.Creation
import SectionStore.Proofs.Markup.TokenForm
import SectionStore.Proofs.Disk.Replace
import SectionStore.Proofs.Envelope.RoundTrip
import SectionStore.Proofs.Envelope.Truncation
import SectionStore.Proofs.Provider.Serving
import SectionStore.Proofs.Registry.Reached
import SectionStore.Proofs.Registry.Delivery
import SectionStore.Proofs.Service.Shutdown
import SectionStore.Proofs.Store.Debounce
import SectionStore.Proofs.Store.Updates
import SectionStore.Proofs.Store.UserSwitch
import SectionStore.Proofs.Envelope.Admission
import SectionStore.Proofs.Store.Rewriting
import SectionStore.Proofs.Store.Operations
import SectionStore.Proofs.Store.Stranded
import SectionStore.Proofs.Provider.Loading
import SectionStore.Proofs.Store.Reading
import SectionStore.Proofs.Store.UserIsolation
import SectionStore.Proofs.Store.AtRest
import SectionStore.Proofs.Registry.Migration
import SectionStore.Proofs.Registry.RoundTrip
import SectionStore.Proofs.Service.WakeUps
import SectionStore.Proofs.Store.Recovery
import SectionStore.Proofs.Envelope.Payloads
import SectionStore.Proofs.Envelope.Streaming
import SectionStore.Proofs.Store.Alarms
import SectionStore.Proofs.Store.Independence
import SectionStore.Proofs.Markup.Delimiters
import SectionStore.Proofs.Store.Blame
import SectionStore.Proofs.Store.ReadOnce
import SectionStore.Proofs.Markup.Misreferences
import SectionStore.Proofs.StoreFile.History
import SectionStore.Proofs.Disk.Course
import SectionStore.Proofs.Markup.Isolation
