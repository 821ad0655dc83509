import Turnstile.Endpoint

/-!
# Endpoint flags of a command line

A server-aware client is told its server by four flags, each written as a token
of its own followed by its value, or joined to the value by an equals sign.
Pointing a command at a server removes every such flag and writes the server's
own values right after the executable.
-/

namespace Turnstile.Endpoint

/-- The flags that tell a client which server to use. -/
def flags : List String :=
  ["--host", "--port", "--host-location", "--protocol"]

/-- The flag and value of a token that joins them by its first equals sign. -/
def inlineFlag? (token : String) : Option (String × String) :=
  match token.toList.span (· ≠ '=') with
  | (flag, '=' :: value) =>
    if String.ofList flag ∈ flags then some (String.ofList flag, String.ofList value) else none
  | _ => none

/-- The arguments without endpoint flags; a flag on its own takes the next token with it. -/
def stripTail : List String → List String
  | [] => []
  | [token] => if token ∈ flags ∨ (inlineFlag? token).isSome then [] else [token]
  | token :: value :: rest =>
    if token ∈ flags then stripTail rest
    else if (inlineFlag? token).isSome then stripTail (value :: rest)
    else token :: stripTail (value :: rest)

/-- The command without endpoint flags.  Its first token is kept whatever it is. -/
def strip : List String → List String
  | [] => []
  | executable :: arguments => executable :: stripTail arguments

/-- The flags that point a client at `endpoint`; defaults of hint and protocol are left out. -/
def arguments (endpoint : Endpoint) : List String :=
  ["--host", endpoint.host, "--port", toString endpoint.port] ++
    (if endpoint.hint = .auto then [] else ["--host-location", endpoint.hint.name]) ++
    (if endpoint.protocol = .http then [] else ["--protocol", endpoint.protocol.name])

/-- The command pointed at `endpoint` and at no other server. -/
def apply (argv : List String) (endpoint : Endpoint) : List String :=
  (strip argv).take 1 ++ endpoint.arguments ++ (strip argv).drop 1

end Turnstile.Endpoint
