import TransactionKey.Exchange.Script
import TransactionKey.Main
import TransactionKey.Proofs.CommandLine
import TransactionKey.Proofs.Exchange.Framing
import TransactionKey.Proofs.Header.BitFields
import TransactionKey.Proofs.Message.Appended
import TransactionKey.Proofs.Message.Reread
import TransactionKey.Proofs.Message.Resent
import TransactionKey.Proofs.Message.Sections
import TransactionKey.Proofs.Name.Plain
import TransactionKey.Proofs.Ranged
import TransactionKey.Proofs.Report
import TransactionKey.Proofs.Request.Received
import TransactionKey.Proofs.ResourceRecord.Verbatim
import TransactionKey.Proofs.Settings
import TransactionKey.Proofs.Tkey.Grammar
import TransactionKey.Proofs.Tkey.RoundTrip
import TransactionKey.Proofs.Tsig.Binding
import TransactionKey.Proofs.Tsig.Clock
import TransactionKey.Proofs.Tsig.Ending
import TransactionKey.Proofs.Tsig.SignedName
