import Houdinny.Error

/-!
# Request lines

The parsers of the proxy's front door: a CONNECT line gives the destination of a
tunnel (`parseConnect`), and a request line in absolute form gives the
destination and the path of a forwarded request (`parseHttpRequest`). A port is
an optional `+` and decimal digits of value at most `65535` (`parsePort`); where
one is refused, the error names it.
-/

namespace Houdinny.Proxy

open Text

/-- `str::parse::<u16>`, with the error message for a text that is no port. -/
def parsePort (msg : Text) (s : Text) : Except Error UInt16 :=
  match parseUnsigned 65535 s with
  | some port => .ok (UInt16.ofNat port)
  | none => .error (.proxy (msg ++ s))

/-- Parse an IPv6 authority like `[::1]:8080` or `[::1]`. It is only called on
    texts that start with the bracket. -/
def parseIpv6Authority (authority : Text) (defaultPort : UInt16) : Except Error (Text × UInt16) :=
  match splitOnce "]".toList authority with
  | none => .error (.proxy ("malformed IPv6 authority: ".toList ++ authority))
  | some (before, remainder) => do
    let host := before.tail
    let port ← match remainder.dropPrefix? ":".toList with
      | some portStr => parsePort "invalid port in IPv6 authority: ".toList portStr
      | none => pure defaultPort
    if host.isEmpty then
      throw (.proxy ("empty host in IPv6 authority: ".toList ++ authority))
    return (host, port)

/-- Parse `host:port` from a CONNECT authority string. -/
def parseHostPort (authority : Text) : Except Error (Text × UInt16) :=
  if authority.head? = some '[' then do
    let (host, port) ← parseIpv6Authority authority 0
    if port = 0 then
      throw (.proxy ("missing port in CONNECT authority: ".toList ++ authority))
    return (host, port)
  else match rsplitOnce ':' authority with
    | some (host, portStr) => do
      let port ← parsePort "invalid port: ".toList portStr
      if host.isEmpty then
        throw (.proxy ("empty host in authority: ".toList ++ authority))
      return (host, port)
    | none => .error (.proxy ("missing port in CONNECT authority: ".toList ++ authority))

/-- Parse a CONNECT request line into `(host, port)`. -/
def parseConnect (line : Text) : Except Error (Text × UInt16) :=
  match splitWhitespace line with
  | method :: authority :: _ =>
    if eqIgnoreAsciiCase method "CONNECT".toList then parseHostPort authority
    else .error (.proxy ("expected CONNECT method, got: ".toList ++ method))
  | _ => .error (.proxy ("malformed CONNECT line: ".toList ++ line))

/-- The scheme of an absolute URL, cut off, with its default port. -/
def stripScheme (url : Text) : Except Error (Text × UInt16) :=
  match url.dropPrefix? "https://".toList with
  | some rest => .ok (rest, 443)
  | none => match url.dropPrefix? "http://".toList with
    | some rest => .ok (rest, 80)
    | none =>
      .error (.proxy ("expected absolute URL (http:// or https://), got: ".toList ++ url))

/-- The host and the port in the authority of a URL. -/
def parseUrlAuthority (authority : Text) (defaultPort : UInt16) : Except Error (Text × UInt16) :=
  if authority.head? = some '[' then parseIpv6Authority authority defaultPort
  else match rsplitOnce ':' authority with
    | some (host, portStr) => do
      let port ← parsePort "invalid port in URL: ".toList portStr
      return (host, port)
    | none => .ok (authority, defaultPort)

/-- A request line in absolute form. -/
structure HttpRequest where
  method : Text
  host : Text
  port : UInt16
  path : Text
  deriving DecidableEq

/-- Parse an absolute-form HTTP request line into `(method, host, port, path)`. -/
def parseHttpRequest (line : Text) : Except Error HttpRequest :=
  match splitWhitespace line with
  | method :: url :: _ => do
    let (withoutScheme, defaultPort) ← stripScheme url
    let authority := withoutScheme.takeWhile (· ≠ '/')
    let path := withoutScheme.dropWhile (· ≠ '/')
    let (host, port) ← parseUrlAuthority authority defaultPort
    if host.isEmpty then
      throw (.proxy ("empty host in URL: ".toList ++ url))
    return ⟨method, host, port, if path.isEmpty then "/".toList else path⟩
  | _ => .error (.proxy ("malformed HTTP request line: ".toList ++ line))

end Houdinny.Proxy
