import Unet4Cooja.Coap.WellKnownCore

/-!
# The REST engine (`rest-engine.c`)

* `RestResource` : `resource_t`; its handlers may look at the list of all resources;
* `restInvokeRestfulService` : the first resource that handles the URL answers.
-/

namespace Unet4Cooja.Coap
open Lib

def coapGet : U8 := 1
def coapDelete : U8 := 4

def notFound404 : CoapStatus := 132
def methodNotAllowed405 : CoapStatus := 133

/-- `restful_handler`, called with the resources that are active, the request, the response, the memory, the
buffer with its size, and `*offset`. -/
abbrev Handler := List Resource → CoapPacket → CoapPacket → Mem → Nat → U16 → Int → HandlerEnd

/-- `rest_resource_flags_t`. -/
abbrev RestResourceFlags := U16

def methodGet : RestResourceFlags := 1 <<< 0
def methodPost : RestResourceFlags := 1 <<< 1
def methodPut : RestResourceFlags := 1 <<< 2
def methodDelete : RestResourceFlags := 1 <<< 3
def hasSubResources : RestResourceFlags := 1 <<< 4
def isObservable : RestResourceFlags := 1 <<< 6

/-- `resource_t`, without what periodic and separate resources have. -/
structure RestResource extends Resource where
  flags : RestResourceFlags
  getHandler : Option Handler
  postHandler : Option Handler
  putHandler : Option Handler
  deleteHandler : Option Handler

def coapGetHeaderUriPath (p : CoapPacket) : Text := if p.isOption .uriPath then p.uriPath else ⟨0, 0⟩

def coapGetRestMethod (p : CoapPacket) : RestResourceFlags := 1 <<< (p.code.toNat - 1)

namespace RestResource
variable (r : RestResource)

/-- The URL is that of the resource, or of one below it. -/
def handles (m : Mem) (request : CoapPacket) : Bool :=
  let url := coapGetHeaderUriPath request
  (url.len = r.url.length ∨ r.url.length < url.len ∧ r.flags &&& hasSubResources ≠ 0) ∧
    slice m url.ptr r.url.length = r.url

/-- The handler that is called for a method. -/
def handler (method : RestResourceFlags) : Option Handler :=
  if method &&& methodGet ≠ 0 ∧ r.getHandler.isSome then r.getHandler
  else if method &&& methodPost ≠ 0 ∧ r.postHandler.isSome then r.postHandler
  else if method &&& methodPut ≠ 0 ∧ r.putHandler.isSome then r.putHandler
  else if method &&& methodDelete ≠ 0 ∧ r.deleteHandler.isSome then r.deleteHandler
  else none

end RestResource

structure ServiceEnd extends HandlerEnd where
  ret : Bool

/-- `service_callback_t`. -/
abbrev Service := CoapPacket → CoapPacket → Mem → Nat → U16 → Int → ServiceEnd

def restInvokeRestfulService (services : List RestResource)
    (subscription : RestResource → CoapPacket → CoapPacket → CoapPacket) : Service :=
  fun request response m buffer bufferSize offset =>
    match services.find? (·.handles m request) with
    | none => ⟨⟨coapSetStatusCode response (notFound404.setWidth 16), m, offset, none⟩, false⟩
    | some resource =>
      match resource.handler (coapGetRestMethod request) with
      | none => ⟨⟨coapSetStatusCode response (methodNotAllowed405.setWidth 16), m, offset, none⟩, false⟩
      | some handler =>
        let e := handler (services.map (·.toResource)) request response m buffer bufferSize offset
        if resource.flags &&& isObservable ≠ 0 then
          ⟨{ e with response := subscription resource request e.response }, true⟩
        else ⟨e, true⟩

end Unet4Cooja.Coap
