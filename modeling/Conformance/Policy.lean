namespace Conformance

inductive Policy
  | element | generic
  deriving DecidableEq

namespace Policy

def name : Policy → String
  | element => "element"
  | generic => "generic"

def all : List Policy := [element, generic]

def default : Policy := element

def ofName? (s : String) : Option Policy := all.find? fun p ↦ p.name == s

end Policy

end Conformance
