import Courier.Http.Error
/-!
Settings of a single call.
-/

namespace Courier

structure Options where
  timeout : Option Duration := none
  headers : Headers := Headers.empty
  deriving DecidableEq, Repr

namespace Options

def setTimeout (o : Options) (limit : Duration) : Options := { o with timeout := some limit }

def setHeader (o : Options) (name value : String) : Except HeaderFault Options := do
  let (n, v) ← readField name value
  return { o with headers := o.headers.insert n v }

def describe (o : Options) : String :=
  Text.described "CallOptions" [("timeout", Text.optional (o.timeout.map Duration.render)),
    ("headers", o.headers.describe)] false

end Options

end Courier
