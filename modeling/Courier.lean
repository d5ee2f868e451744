import Courier.Body.Document
import Courier.Body.Form
import Courier.Body.Multipart
import Courier.Body.Multipart.Reader
import Courier.Chain.Layer
import Courier.Chain.Script
import Courier.Client.Basic
import Courier.Decimal.Reading
import Courier.Http.MediaType
import Courier.Proofs.Body.Walk
import Courier.Proofs.Text.Percent
import Courier.Proofs.Text.Utf8
import Courier.Transport.Settings
import Courier.Transport.Wire
import Courier.Proofs.Body.Form
import Courier.Proofs.Body.Multipart
import Courier.Proofs.Chain.Ending
import Courier.Proofs.Chain.Onion
import Courier.Proofs.Chain.Deadline
import Courier.Proofs.Chain.Relay
import Courier.Proofs.Chain.Join
import Courier.Proofs.Client.Timeout
import Courier.Proofs.Client.Concurrent
import Courier.Proofs.Http.Uri
import Courier.Proofs.Client.Target
import Courier.Proofs.Client.Headers
import Courier.Proofs.Body.Refusal
import Courier.Proofs.Client.Draft
import Courier.Proofs.Client.Query
import Courier.Proofs.Client.Path
import Courier.Proofs.Client.Template
import Courier.Proofs.Client.QueryText
import Courier.Proofs.Client.Limit
import Courier.Proofs.Client.Announcement
import Courier.Proofs.Client.Payload
import Courier.Proofs.Body.Key
import Courier.Proofs.Chain.Header
import Courier.Proofs.Chain.Tracing
import Courier.Proofs.Chain.Compose
import Courier.Proofs.Chain.Interruption
import Courier.Proofs.Client.Cancellation
import Courier.Proofs.Body.Document
import Courier.Proofs.Text.Slice
import Courier.Proofs.Client.Placeholder
