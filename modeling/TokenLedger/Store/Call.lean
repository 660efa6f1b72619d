import TokenLedger.Record

/-!
The calls that a store answers: queries, which only read, and writes.
-/

set_option autoImplicit false

namespace TokenLedger

inductive Query where
  | existsDomain (name : Name)
  | readDomain (name : Name)
  | existsGroup (id : GroupId)
  | readGroup (id : GroupId)
  | existsToken (domain name : Name)
  | readToken (domain name : Name)
  | existsAccount (name : Name)
  | readAccount (name : Name)
  deriving DecidableEq, Repr

/-- What a query is answered with. -/
abbrev Query.Answer : Query → Type
  | .existsDomain _ | .existsGroup _ | .existsToken _ _ | .existsAccount _ => Bool
  | .readDomain _ => Domain
  | .readGroup _ => Group
  | .readToken _ _ => Token
  | .readAccount _ => Account

inductive Write where
  | addDomain (domain : Domain)
  | updateDomain (domain : Domain)
  | addGroup (group : Group)
  | updateGroup (group : Group)
  | issueTokens (tokens : List Token)
  | transferToken (domain name : Name) (owner : List PublicKey)
  | addAccount (account : Account)
  | updateAccount (account : Account)
  deriving DecidableEq, Repr

inductive Call where
  | ask (query : Query)
  | perform (write : Write)
  deriving DecidableEq, Repr

/-- Which function of the store a call goes to. -/
inductive CallKind where
  | existsDomain
  | readDomain
  | addDomain
  | updateDomain
  | existsGroup
  | readGroup
  | addGroup
  | updateGroup
  | existsToken
  | readToken
  | issueTokens
  | transferToken
  | existsAccount
  | readAccount
  | addAccount
  | updateAccount
  deriving DecidableEq, Repr

def Query.kind : Query → CallKind
  | .existsDomain _ => .existsDomain
  | .readDomain _ => .readDomain
  | .existsGroup _ => .existsGroup
  | .readGroup _ => .readGroup
  | .existsToken _ _ => .existsToken
  | .readToken _ _ => .readToken
  | .existsAccount _ => .existsAccount
  | .readAccount _ => .readAccount

def Write.kind : Write → CallKind
  | .addDomain _ => .addDomain
  | .updateDomain _ => .updateDomain
  | .addGroup _ => .addGroup
  | .updateGroup _ => .updateGroup
  | .issueTokens _ => .issueTokens
  | .transferToken _ _ _ => .transferToken
  | .addAccount _ => .addAccount
  | .updateAccount _ => .updateAccount

def Call.kind : Call → CallKind
  | .ask query => query.kind
  | .perform write => write.kind

end TokenLedger
