import Switchyard.Cors.Policy
import Switchyard.Negotiation.Negotiator
/-!
# Settings

A dispatch setup as it is configured: routes, interceptors, CORS policies by path, and content
negotiation. Nothing in it is checked yet but the form.
-/

namespace Switchyard.Config

/-- A route to a handler by its name. -/
structure RouteSettings where
  pattern : String
  methods : List String := []
  handler : String
  produces : List String := []
  deriving DecidableEq, Repr

/-- An interceptor by its name, with the paths that it is for. -/
structure InterceptorSettings where
  name : String
  includes : List String := []
  excludes : List String := []
  deriving DecidableEq, Repr

def InterceptorSettings.isGlobal (s : InterceptorSettings) : Bool :=
  s.includes.isEmpty && s.excludes.isEmpty

/-- A CORS policy for the paths of a pattern. -/
structure PolicySettings where
  pattern : String
  policy : CorsPolicy.Draft := {}
  deriving DecidableEq, Repr

/-- How media types are negotiated. The media types are in the order of their extensions. -/
structure NegotiationSettings where
  favorParameter : Bool := false
  parameterName : String := Strategy.defaultParameter
  ignoreAcceptHeader : Bool := false
  defaultContentTypes : List String := []
  mediaTypes : List (String × String) := []
  useNotAcceptable : Bool := false
  deriving DecidableEq, Repr

/-- A dispatch setup. -/
structure Settings where
  routes : List RouteSettings := []
  defaultHandler : Option String := none
  interceptors : List InterceptorSettings := []
  policies : List PolicySettings := []
  negotiation : NegotiationSettings := {}
  deriving DecidableEq, Repr

/-- The environment variable that names the configuration file where no argument does. -/
def fileVariable : String := "BRRTD_CONFIG"

namespace Key

def pattern : String := "pattern"
def methods : String := "methods"
def handler : String := "handler"
def produces : String := "produces"
def name : String := "name"
def includes : String := "include"
def excludes : String := "exclude"
def allowedOrigins : String := "allowed_origins"
def allowedOriginPatterns : String := "allowed_origin_patterns"
def allowedMethods : String := "allowed_methods"
def allowedHeaders : String := "allowed_headers"
def exposedHeaders : String := "exposed_headers"
def allowCredentials : String := "allow_credentials"
def maxAge : String := "max_age"
def favorParameter : String := "favor_parameter"
def parameterName : String := "parameter_name"
def ignoreAcceptHeader : String := "ignore_accept_header"
def defaultContentTypes : String := "default_content_types"
def mediaTypes : String := "media_types"
def useNotAcceptable : String := "use_not_acceptable"
def routes : String := "routes"
def defaultHandler : String := "default_handler"
def interceptors : String := "interceptors"
def policies : String := "cors"
def negotiation : String := "negotiation"

end Key

/-- The fields of an option, none for one that is not set. -/
def optionFields (key : String) (write : α → Value) (option : Option α) : List (String × Value) :=
  (option.map fun a => (key, write a)).toList

def RouteSettings.toValue (s : RouteSettings) : Value := .object [
  (Key.pattern, .text s.pattern), (Key.methods, .texts s.methods), (Key.handler, .text s.handler),
  (Key.produces, .texts s.produces)]

def InterceptorSettings.toValue (s : InterceptorSettings) : Value := .object [
  (Key.name, .text s.name), (Key.includes, .texts s.includes), (Key.excludes, .texts s.excludes)]

def PolicySettings.toValue (s : PolicySettings) : Value := .object <|
  [(Key.pattern, .text s.pattern)] ++
    optionFields Key.allowedOrigins .texts s.policy.allowedOrigins ++
    optionFields Key.allowedOriginPatterns .texts s.policy.allowedOriginPatterns ++
    optionFields Key.allowedMethods .texts s.policy.allowedMethods ++
    optionFields Key.allowedHeaders .texts s.policy.allowedHeaders ++
    optionFields Key.exposedHeaders .texts s.policy.exposedHeaders ++
    optionFields Key.allowCredentials .bool s.policy.allowCredentials ++
    optionFields Key.maxAge .ofNat s.policy.maxAge

def NegotiationSettings.toValue (s : NegotiationSettings) : Value := .object [
  (Key.favorParameter, .bool s.favorParameter), (Key.parameterName, .text s.parameterName),
  (Key.ignoreAcceptHeader, .bool s.ignoreAcceptHeader),
  (Key.defaultContentTypes, .texts s.defaultContentTypes),
  (Key.mediaTypes, .object (s.mediaTypes.map fun (extension, type) => (extension, .text type))),
  (Key.useNotAcceptable, .bool s.useNotAcceptable)]

/-- The settings with all defaults written out; options that are not set are left out. -/
def Settings.toValue (s : Settings) : Value := .object <|
  [(Key.routes, .list (s.routes.map (·.toValue)))] ++
    optionFields Key.defaultHandler .text s.defaultHandler ++
    [(Key.interceptors, .list (s.interceptors.map (·.toValue))),
      (Key.policies, .list (s.policies.map (·.toValue))),
      (Key.negotiation, s.negotiation.toValue)]

end Switchyard.Config
