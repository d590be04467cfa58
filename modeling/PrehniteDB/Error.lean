namespace PrehniteDB

/-- Every failure the engine can report; each variant names the detecting layer. -/
inductive Error where
  | io (message : String)
  | corruption (message : String)
  | parse (message : String)
  | exec (message : String)
  | tooLarge (message : String)
  | exhausted (message : String)
  | protocol (message : String)
  | conflict (message : String)
  | serialization (message : String)
  deriving Repr, DecidableEq

/-- The rendering a client sees. -/
def Error.display : Error → String
  | .io message => "i/o error: " ++ message
  | .corruption message => "corruption: " ++ message
  | .parse message => "parse error: " ++ message
  | .exec message => message
  | .tooLarge message => "limit exceeded: " ++ message
  | .exhausted message => "exhausted: " ++ message
  | .protocol message => "protocol error: " ++ message
  | .conflict message => "conflict: " ++ message
  | .serialization message => "serialization failure: " ++ message

end PrehniteDB
