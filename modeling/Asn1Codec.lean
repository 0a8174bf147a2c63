import Asn1Codec.Hex
import Asn1Codec.ErrorXml
import Asn1Codec.Requirements
import Asn1Codec.Decode
import Asn1Codec.Encode
import Asn1Codec.Process
import Asn1Codec.Stateless
import Asn1Codec.Operator
import Asn1Codec.Publish
import Asn1Codec.Shutdown
import Asn1Codec.Layered
import Asn1Codec.Listed
import Asn1Codec.Atomicity
import Asn1Codec.Payload
import Asn1Codec.RoundTrip
import Asn1Codec.Http
import Asn1Codec.Batch
import Asn1Codec.ReadBack
import Asn1Codec.Conformance
import Asn1Codec.Drivers
import Asn1Codec.OwnRule
import Asn1Codec.Transparent
import Asn1Codec.Backlog
import Asn1Codec.Delivery
import Asn1Codec.Block
import Asn1Codec.Buffer
import Asn1Codec.Configuration
import Asn1Codec.Subscription
import Asn1Codec.Xml.Frame
import Asn1Codec.Annotation
import Asn1Codec.GetOpt
import Asn1Codec.Tool
import Asn1Codec.Settings
import Asn1Codec.Logger
import Asn1Codec.Transcript
import Asn1Codec.Program
import Asn1Codec.Server
import Asn1Codec.Edited
import Asn1Codec.Progress
import Asn1Codec.Handles
import Asn1Codec.Status
import Asn1Codec.Network
import Asn1Codec.Fleet
