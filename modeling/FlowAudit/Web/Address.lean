import FlowAudit.Text.Numeral
import FlowAudit.Web.Url

namespace FlowAudit.Web

structure Address where
  host : String
  port : Nat
  deriving Inhabited, Repr, DecidableEq

namespace Address

def namedPorts : List (String × Nat) := [("", 0), ("http", 80), ("https", 443)]

def ofHost (host port : List Char) : Except String Address :=
  let host := String.ofList host
  let name := String.ofList port
  match Text.readDigits? 10 port, namedPorts.find? (·.1 == name) with
  | some n, _ =>
    if n < 65536 then .ok ⟨host, n⟩ else .error ("listen tcp: address " ++ name ++ ": invalid port")
  | none, some (_, n) => .ok ⟨host, n⟩
  | none, none => .error ("listen tcp: lookup tcp/" ++ name ++ ": unknown port")

def parse (s : String) : Except String Address :=
  let refuse (reason : String) : Except String Address :=
    .error ("listen tcp: address " ++ s ++ ": " ++ reason)
  let cs := if s == "" then ":http".toList else s.toList
  match Url.cutLast ':' cs with
  | none => refuse "missing port in address"
  | some (host, port) =>
    match host with
    | '[' :: inner =>
      match Url.cut ']' inner with
      | (name, some []) => ofHost name port
      | (_, some _) => refuse "too many colons in address"
      | (_, none) => refuse "missing ']' in address"
    | _ =>
      if host.contains ':' then refuse "too many colons in address"
      else if host.contains '[' || host.contains ']' then refuse "unexpected bracket in address"
      else ofHost host port

end Address

end FlowAudit.Web
