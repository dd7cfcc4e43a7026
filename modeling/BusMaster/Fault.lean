import BusMaster.Text.Digits
import BusMaster.Text.Quoted

/-!
# What can go wrong

Every failure is a value that says what was wrong; its wording is the business of one function
`message` per kind. A request fails with a `RequestFault`: before anything is sent
(`configuration`), on the way (`link`, `noReply`, `frame`), in what the device answered (`echo`,
`body`, `length`, `exception`), or because there is nobody to carry it (`notConnected`, `stopped`).
-/

namespace BusMaster

/-- how the operating system failed at a link -/
inductive LinkFault where
  | notFound
  | permissionDenied
  | connectionRefused
  | connectionReset
  | connectionAborted
  | notConnected
  | addressInUse
  | brokenPipe
  | timedOut
  | invalidInput
  | invalidData
  | unexpectedEnd
  | writeZero
  | other
  deriving DecidableEq, Repr

/-- the wording of a link fault -/
def LinkFault.message : LinkFault → String
  | .notFound => "entity not found"
  | .permissionDenied => "permission denied"
  | .connectionRefused => "connection refused"
  | .connectionReset => "connection reset"
  | .connectionAborted => "connection aborted"
  | .notConnected => "not connected"
  | .addressInUse => "address in use"
  | .brokenPipe => "broken pipe"
  | .timedOut => "timed out"
  | .invalidInput => "invalid input parameter"
  | .invalidData => "invalid data"
  | .unexpectedEnd => "unexpected end of file"
  | .writeZero => "write zero"
  | .other => "other error"

/-- what a device answers in place of a normal response -/
inductive ExceptionCode where
  /-- the function code is not supported by the device -/
  | illegalFunction
  /-- the address range is not valid on the device -/
  | illegalDataAddress
  /-- a value in the request is not valid on the device -/
  | illegalDataValue
  /-- the device failed while performing the request -/
  | serverDeviceFailure
  /-- the device accepted a long-running request -/
  | acknowledge
  /-- the device is busy -/
  | serverDeviceBusy
  /-- parity error while reading device memory -/
  | memoryParityError
  /-- a gateway could not route the request -/
  | gatewayPathUnavailable
  /-- a gateway received no response from the target device -/
  | gatewayTargetFailed
  /-- a code without a standard meaning -/
  | unknown (code : UInt8)
  deriving DecidableEq, Repr

namespace ExceptionCode

/-- the exception a byte stands for -/
def ofByte (code : UInt8) : ExceptionCode :=
  match code with
  | 0x01 => .illegalFunction
  | 0x02 => .illegalDataAddress
  | 0x03 => .illegalDataValue
  | 0x04 => .serverDeviceFailure
  | 0x05 => .acknowledge
  | 0x06 => .serverDeviceBusy
  | 0x08 => .memoryParityError
  | 0x0A => .gatewayPathUnavailable
  | 0x0B => .gatewayTargetFailed
  | _ => .unknown code

/-- the byte that stands for an exception -/
def toByte : ExceptionCode → UInt8
  | .illegalFunction => 0x01
  | .illegalDataAddress => 0x02
  | .illegalDataValue => 0x03
  | .serverDeviceFailure => 0x04
  | .acknowledge => 0x05
  | .serverDeviceBusy => 0x06
  | .memoryParityError => 0x08
  | .gatewayPathUnavailable => 0x0A
  | .gatewayTargetFailed => 0x0B
  | .unknown code => code

/-- the wording of an exception -/
def message : ExceptionCode → String
  | .illegalFunction => "illegal function"
  | .illegalDataAddress => "illegal data address"
  | .illegalDataValue => "illegal data value"
  | .serverDeviceFailure => "server device failure"
  | .acknowledge => "acknowledge"
  | .serverDeviceBusy => "server device busy"
  | .memoryParityError => "memory parity error"
  | .gatewayPathUnavailable => "gateway path unavailable"
  | .gatewayTargetFailed => "gateway target device failed to respond"
  | .unknown code => "unknown exception code: " ++ markedByte code

end ExceptionCode

/-- why a run of bits cannot be made or used -/
inductive BitsFault where
  /-- a position at or past the size -/
  | indexOutOfRange (index size : Nat)
  /-- more bits asked for than the bytes hold -/
  | tooLarge (size capacity : Nat)
  /-- a character other than a binary digit or a blank -/
  | badCharacter (c : Char)
  deriving DecidableEq, Repr

/-- the wording of a bits fault -/
def BitsFault.message : BitsFault → String
  | .indexOutOfRange index size => s!"bit index {index} out of range for size {size}"
  | .tooLarge size capacity => s!"size {size} exceeds capacity of {capacity} bits"
  | .badCharacter c => "invalid bit string character: " ++ quoted c

/-- why a frame was not accepted -/
inductive FrameFault where
  /-- the CRC of the frame is not the one computed -/
  | crcMismatch (received expected : UInt16)
  /-- the LRC of the frame is not the one computed -/
  | lrcMismatch (received expected : UInt8)
  /-- a character that is no hex digit -/
  | badHexCharacter (c : UInt8)
  /-- an odd number of hex digits -/
  | oddHexLength
  /-- no start marker in the line -/
  | missingStart
  /-- longer than a frame can be -/
  | tooLarge (size : Nat)
  /-- shorter than unit id, function code and checksum -/
  | tooShort (size : Nat)
  /-- as many bytes dropped as may be dropped, and still no frame -/
  | resyncLimit
  /-- an answer from another unit -/
  | unitMismatch (expected received : UInt8)
  /-- an answer to another function -/
  | functionMismatch (expected received : UInt8)
  /-- a function code whose answers cannot be delimited -/
  | unknownFunction (code : UInt8)
  /-- a bridge header with a protocol id other than zero -/
  | unknownProtocol (id : UInt16)
  /-- a bridge header that gives another length than the body has -/
  | lengthMismatch (header body : Nat)
  deriving DecidableEq, Repr

/-- the wording of a frame fault -/
def FrameFault.message : FrameFault → String
  | .crcMismatch received expected =>
    "received crc " ++ markedWord received ++ " does not match calculated crc "
      ++ markedWord expected
  | .lrcMismatch received expected =>
    "received lrc " ++ markedByte received ++ " does not match calculated lrc "
      ++ markedByte expected
  | .badHexCharacter c => "invalid hex character: " ++ markedByte c
  | .oddHexLength => "odd number of hex characters"
  | .missingStart => "missing ':' start marker"
  | .tooLarge size => s!"frame length of {size} exceeds the maximum"
  | .tooShort size => s!"frame length of {size} is below the minimum"
  | .resyncLimit => "no valid frame found after maximum resynchronization attempts"
  | .unitMismatch expected received =>
    "expected unit id " ++ markedByte expected ++ ", received " ++ markedByte received
  | .functionMismatch expected received =>
    "expected function code " ++ markedByte expected ++ ", received " ++ markedByte received
  | .unknownFunction code => "unknown function code: " ++ markedByte code
  | .unknownProtocol id => "unknown protocol id: " ++ markedWord id
  | .lengthMismatch header body =>
    s!"header length of {header} does not match body length of {body}"

/-- why the body of a response was not accepted -/
inductive BodyFault where
  /-- the body ends too early -/
  | tooShort
  /-- the body goes on after its end -/
  | trailingBytes
  /-- a coil that is neither on nor off -/
  | unknownCoilState (state : UInt16)
  /-- a field with another value than it must have -/
  | unexpectedField (value : UInt8)
  deriving DecidableEq, Repr

/-- the wording of a body fault -/
def BodyFault.message : BodyFault → String
  | .tooShort => "response is too short"
  | .trailingBytes => "response contains trailing bytes"
  | .unknownCoilState state =>
    "received coil state with unspecified value: " ++ markedWord state
  | .unexpectedField value => "unexpected field value: " ++ markedByte value

/-- what is wrong with a request, a registration or a value of the host -/
inductive ConfigFault where
  /-- the node is not registered -/
  | unknownNode
  /-- the dataset is not registered -/
  | unknownDataset
  /-- the channel is not registered -/
  | unknownChannel
  /-- a word that names nothing -/
  | unknownName
  /-- the message class does not allow the action -/
  | unsupportedClass
  /-- a value only the device can change -/
  | readOnly
  /-- a value of another kind than the channel holds -/
  | valueMismatch
  /-- a value that does not fit -/
  | valueOutOfRange
  /-- a request for nothing -/
  | zeroCount
  /-- a request for more than one frame carries -/
  | countTooLarge (count max : UInt16)
  /-- a range that runs past the last address -/
  | addressOverflow
  /-- a request longer than a frame -/
  | frameTooLarge
  deriving DecidableEq, Repr

/-- the wording of a configuration fault -/
def ConfigFault.message : ConfigFault → String
  | .unknownNode => "unknown node"
  | .unknownDataset => "unknown dataset"
  | .unknownChannel => "unknown channel"
  | .unknownName => "unknown configuration name"
  | .unsupportedClass => "message class does not support this action"
  | .readOnly => "value class is read-only"
  | .valueMismatch => "value does not match the value class"
  | .valueOutOfRange => "value is out of range"
  | .zeroCount => "count of zero"
  | .countTooLarge count max => s!"count of {count} exceeds the maximum of {max}"
  | .addressOverflow => "address range overflows u16"
  | .frameTooLarge => "request does not fit in a frame"

/-- why a request failed -/
inductive RequestFault where
  /-- no link is open -/
  | notConnected
  /-- the link failed -/
  | link (fault : LinkFault)
  /-- no complete response before the deadline -/
  | noReply
  /-- a response frame could not be delimited or validated -/
  | frame (fault : FrameFault)
  /-- a write was answered with another address or count -/
  | echo
  /-- the body of the response is malformed -/
  | body (fault : BodyFault)
  /-- the response carries another number of bytes than was asked for -/
  | length (expected actual : Nat)
  /-- the request itself is wrong -/
  | configuration (fault : ConfigFault)
  /-- the protocol or the link does not offer the operation -/
  | unsupported
  /-- the serial port is taken -/
  | portInUse
  /-- the serial port does not take the settings -/
  | portSettings
  /-- there is no such serial port -/
  | portUnavailable
  /-- the device answered with an exception -/
  | exception (code : ExceptionCode)
  /-- the engine was stopped -/
  | stopped
  deriving DecidableEq, Repr

/-- the wording of a request fault -/
def RequestFault.message : RequestFault → String
  | .notConnected => "the transceiver is not connected"
  | .link fault => "i/o error: " ++ fault.message
  | .noReply => "response timeout"
  | .frame fault => "invalid frame: " ++ fault.message
  | .echo => "echoed address or count does not match the request"
  | .body fault => "malformed response: " ++ fault.message
  | .length expected actual =>
    s!"response byte count mismatch: expected {expected}, received {actual}"
  | .configuration fault => "invalid configuration: " ++ fault.message
  | .unsupported => "operation not supported by this protocol or link"
  | .portInUse => "serial port is in use"
  | .portSettings => "serial port does not support the requested settings"
  | .portUnavailable => "serial port is not available"
  | .exception code => "exception response: " ++ code.message
  | .stopped => "the processing task has shut down"

/-- a fault of the bits of a value is a value that does not fit -/
def BitsFault.toConfig (_ : BitsFault) : ConfigFault := .valueOutOfRange

/-- a computation that may fail with a configuration fault, inside a request -/
def ofConfig {α : Type} : Except ConfigFault α → Except RequestFault α
  | .ok a => .ok a
  | .error e => .error (.configuration e)

end BusMaster
