import BuildCapture.Snapshot.Codec
set_option autoImplicit false

namespace BuildCapture

open Json

structure Envelope where
  data : Snapshot
  message : List String
  source : String
  sourceHost : String
  timestamp : String
  /-- When the build was scheduled, as its snapshot has it. -/
  buildTimestamp : String
  version : UInt32
  deriving DecidableEq

namespace Envelope

def currentVersion : UInt32 := 1

def new (data : Snapshot) (message : List String) (source sourceHost : String) (now : Instant)
    (format : DateFormat) : Option Envelope :=
  (format.write now).map fun timestamp =>
    { data, message, source, sourceHost, timestamp
      buildTimestamp := data.timestamp
      version := currentVersion }

def record : Record Envelope where
  name := "LogPayload"
  fields :=
    .cons (.required "data" Snapshot.record.codec) <|
    .cons (.required "message" Codec.string.list) <|
    .cons (.required "source" .string) <|
    .cons (.required "sourceHost" .string) <|
    .cons (.required "@timestamp" .string) <|
    .cons (.required "@buildTimestamp" .string) <|
    .cons (.required "@version" .word32) .nil
  build := fun (data, message, source, sourceHost, timestamp, buildTimestamp, version, ()) =>
    { data, message, source, sourceHost, timestamp, buildTimestamp, version }
  parts e := (e.data, e.message, e.source, e.sourceHost, e.timestamp, e.buildTimestamp, e.version,
    ())

def ofJson (s : String) : Except Error Envelope := record.codec.decode s

def toValue (e : Envelope) : Value := record.codec.write e

def toJson (e : Envelope) : String := record.codec.encode e

end Envelope

end BuildCapture
