import BpStd.Rust.Outcome
import BpStd.Rust.Num
import BpStd.Rust.Str
import BpStd.Psbt.Timelocks
import BpStd.Derive.Index
import BpStd.Derive.Batch
import BpStd.Derive.Path
import BpStd.Derive.Segment
import BpStd.Derive.Text
import BpStd.Derive.MerkleBuoy
import BpStd.Derive.TapTree
import BpStd.Derive.TapTreeDisplay
import BpStd.Derive.ControlBlock
import BpStd.Invoice.Base58.Digits
import BpStd.Invoice.Base58.SmallVec
import BpStd.Invoice.Base58.Alphabet
import BpStd.Invoice.Base58.Carry
import BpStd.Invoice.Base58.Encode
import BpStd.Invoice.Base58.Decode
import BpStd.Invoice.Base58.Codec
import BpStd.Descriptors.Ast
import BpStd.Descriptors.SingleSig
import BpStd.Descriptors.SpkClass
import BpStd.Descriptors.DescrId
import BpStd.Descriptors.Descriptor
import BpStd.Descriptors.Tokenizer
import BpStd.Descriptors.Compile
import BpStd.Descriptors.ParseOutcomes
import BpStd.Descriptors.Accepted
import BpStd.Descriptors.RoundTrip
import BpStd.Descriptors.CallText
import BpStd.Descriptors.Harness
import BpStd.Derive.BuilderCompleteness
import BpStd.Psbt.Sigtypes
import BpStd.Invoice.Network
import BpStd.Psbt.Version
