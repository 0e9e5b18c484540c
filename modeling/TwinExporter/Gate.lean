import TwinExporter.Dumps
import TwinExporter.Registry

/-!
# The signature gate

`verify_feature_signature` of `exporter.py`, and `sign_json_payload` of `sign.py`, which the valve
and the notifier call before they write a feature to Ditto. The signer signs the UTF-8 bytes of
`json.dumps(payload, sort_keys=True)` and sends the signature, in Base64, as the `signature`
property; the gate removes that property, serializes the rest the same way, decodes the signature,
and checks it with the public key. The gate catches every exception and answers `False`.
-/

namespace TwinExporter

/-- Python's truth value of a JSON value, as `not signature_b64` tests it: `None`, `False`, zero,
and empty strings, lists and dictionaries are false. -/
def JsonValue.truthy : JsonValue → Bool
  | .null => false
  | .bool b => b
  | .int n => n != 0
  | .float r => r != "0.0" && r != "-0.0"
  | .str s => s != ""
  | .array xs => !xs.isEmpty
  | .object kvs => !kvs.isEmpty

/-- `base64.b64decode` on a JSON value: a string is decoded, and any other value raises
`TypeError`. -/
def b64decodeValue : JsonValue → Option (List UInt8)
  | .str s => b64decode s
  | _ => none

/-- The bytes that both sides sign: `json.dumps(payload, sort_keys=True).encode('utf-8')`. -/
def payloadBytes (payload : Dict JsonValue) : List UInt8 :=
  encodeUtf8 ⟨dumps (.object payload.entries)⟩

/-- `verify_feature_signature(feature_data, public_key_path)`. A missing `properties`, a missing or
false `signature`, a signature that does not decode, a missing key file and a failed verification
all answer `False`. -/
def verifyFeatureSignature (host : Host) (feature_data : Feature) (public_key_path : String) :
    Bool :=
  match feature_data.properties with
  | none => false
  | some props =>
    match props.get? "signature" with
    | none => false
    | some signature_b64 =>
      if !signature_b64.truthy then false
      else
        match b64decodeValue signature_b64 with
        | none => false
        | some signature =>
          match host.publicKey public_key_path with
          | none => false
          | some key => host.verify key signature (payloadBytes (props.erase "signature"))

/-- `sign_json_payload(payload)`: the signature that the private key produces on the payload's
bytes, in Base64. `sign` is the signing run's output on a message; PSS draws a fresh salt each
time, so two runs may give different signatures. -/
def signJsonPayload (sign : List UInt8 → List UInt8) (payload : Dict JsonValue) : String :=
  b64encode (sign (payloadBytes payload))

end TwinExporter
