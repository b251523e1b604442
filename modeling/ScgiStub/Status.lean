/-! # Status codes

A reply starts with a code of two digits that says how the request went.
-/

namespace ScgiStub

inductive Status where
  | input
  | sensitiveInput
  | success
  | temporaryRedirect
  | permanentRedirect
  | temporaryFailure
  | serverUnavailable
  | cgiError
  | proxyError
  | slowDown
  | permanentFailure
  | notFound
  | gone
  | proxyRequestRefused
  | badRequest
  | clientCertificateRequired
  | certificateNotAuthorised
  | certificateNotValid
  deriving DecidableEq, Repr

namespace Status

def code : Status → Nat
  | input => 10
  | sensitiveInput => 11
  | success => 20
  | temporaryRedirect => 30
  | permanentRedirect => 31
  | temporaryFailure => 40
  | serverUnavailable => 41
  | cgiError => 42
  | proxyError => 43
  | slowDown => 44
  | permanentFailure => 50
  | notFound => 51
  | gone => 52
  | proxyRequestRefused => 53
  | badRequest => 59
  | clientCertificateRequired => 60
  | certificateNotAuthorised => 61
  | certificateNotValid => 62

def all : List Status :=
  [input, sensitiveInput, success, temporaryRedirect, permanentRedirect, temporaryFailure,
    serverUnavailable, cgiError, proxyError, slowDown, permanentFailure, notFound, gone,
    proxyRequestRefused, badRequest, clientCertificateRequired, certificateNotAuthorised,
    certificateNotValid]

def ofCode? (n : Nat) : Option Status :=
  all.find? (·.code = n)

theorem ofCode?_code (s : Status) : ofCode? s.code = some s := by
  cases s <;> rfl

theorem ofCode?_eq_some_iff {n : Nat} {s : Status} : ofCode? n = some s ↔ s.code = n := by
  constructor
  · intro h
    simpa using List.find?_some h
  · rintro rfl
    exact ofCode?_code s

end Status

end ScgiStub
