import Tim.Model.Http

/-!
# `Tim.Model.AccessLog`: the trace context of a request (`src/access_log.rs`)

The trace id that a request is logged with: the one of its `traceparent` header, or a fresh one.
`accessLogMiddleware` puts it on the reply, in a `traceparent` header of its own and in the shorter
`x-trace-id`. The random bytes of `OsRng` are an argument. The log line itself is left out.
-/

set_option autoImplicit false

namespace Tim.Web

/-- `u8::is_ascii_hexdigit`. -/
def isAsciiHexdigit (b : UInt8) : Bool :=
  (48 ≤ b && b ≤ 57) || (65 ≤ b && b ≤ 70) || (97 ≤ b && b ≤ 102)

/-- `len() == n` and all bytes are hexadecimal digits. -/
def isHexText (n : Nat) (part : String) : Bool :=
  (asBytes part).length == n && (asBytes part).all isAsciiHexdigit

/-- The trace id and the flags of a header, by its parts. The parts that get this far are ASCII,
where `to_lowercase` is `to_ascii_lowercase`. -/
def inheritedTrace : List String → Option (String × String)
  | [version, traceId, spanId, flags] =>
      if version = "00" && isHexText 32 traceId && traceId ≠ "00000000000000000000000000000000"
          && isHexText 16 spanId && isHexText 2 flags then
        some (toAsciiLowercase traceId, toAsciiLowercase flags)
      else none
  | _ => none

/-- The fresh trace id of 16 random bytes, with the flag that it is sampled. -/
def freshTrace (bytes : Vector UInt8 16) : String × String := (hexEncode bytes.toList, "01")

/-- `parse_or_generate_trace_id`, with the bytes that `OsRng` fills in. -/
def parseOrGenerateTraceId (req : HttpRequest) (bytes : Vector UInt8 16) : String × String :=
  match (req.header "traceparent").bind fun tp => inheritedTrace (splitChar tp '-') with
  | some trace => trace
  | none => freshTrace bytes

/-- `fresh_span_id`, with the bytes that `OsRng` fills in. -/
def freshSpanId (bytes : Vector UInt8 8) : String := hexEncode bytes.toList

/-! ### The headers of the reply -/

/-- The headers of a message, by their lower-case names. -/
abbrev Headers := List (String × Bytes)

/-- `HeaderMap::get_all`. -/
def Headers.getAll (headers : Headers) (name : String) : List Bytes :=
  (headers.filter fun h => h.1 = name).map (·.2)

/-- `HeaderMap::insert`: the value replaces all those that the name has. -/
def Headers.insert (headers : Headers) (name : String) (value : Bytes) : Headers :=
  headers.filter (fun h => h.1 ≠ name) ++ [(name, value)]

/-- `HeaderValue::from_str`: visible ASCII, spaces, tabs and all bytes from 128 on. -/
def headerValue (s : String) : Option Bytes :=
  if (asBytes s).all fun b => b = 9 || 32 ≤ b && b ≠ 127 then some (asBytes s) else none

/-- The header with this text. One that no header can carry is logged and left out. -/
def Headers.attach (headers : Headers) (name text : String) : Headers :=
  match headerValue text with
  | some value => headers.insert name value
  | none => headers

/-- The random bytes that the middleware draws for a request. -/
structure Draws where
  trace : Vector UInt8 16
  span : Vector UInt8 8

/-- `access_log_middleware`, as the headers of the reply. `next` is the rest of the server. -/
def accessLogMiddleware (next : HttpRequest → Headers) (req : HttpRequest) (draws : Draws) :
    Headers :=
  let (traceId, flags) := parseOrGenerateTraceId req draws.trace
  let spanId := freshSpanId draws.span
  let traceparent := "00-" ++ traceId ++ "-" ++ spanId ++ "-" ++ flags
  ((next req).attach "traceparent" traceparent).attach "x-trace-id" traceId

end Tim.Web
