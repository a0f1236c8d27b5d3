import MapGate.Ows.Request
import MapGate.Url.Basic

/-!
# Pointing requests at the renderer

A request for a project becomes one for the project's file on the disk of the
renderer, which `MAP` names. Nothing that identifies the client goes along.
-/

namespace MapGate

/-- Where the renderer finds a project. -/
structure ProjectLocation where
  owner : String
  name : String
  file : String
  deriving DecidableEq

/-- The renderer as the gate knows it. -/
structure RendererSettings where
  url : Url
  /-- The directory below which the renderer finds the projects. -/
  mapRoot : String
  /-- The header with the name of the user, which is not passed on. -/
  identityHeader : HeaderName

namespace RendererSettings

/-- The path of a project file on the disk of the renderer. -/
def mapPath (renderer : RendererSettings) (project : ProjectLocation) : String :=
  "/".intercalate
    [Text.withoutFinal '/' renderer.mapRoot, project.owner, project.name, project.file]

/-- The headers that go to the renderer. -/
def directHeaders (renderer : RendererSettings) (headers : Headers) : Headers :=
  let headers :=
    if headers.contains .userAgent then headers else headers.append .userAgent ByteArray.empty
  ((headers.remove .cookie).remove .host).remove renderer.identityHeader

/-- The request with its `MAP` parameter set and its headers reduced. -/
def direct (renderer : RendererSettings) (project : ProjectLocation) (request : Request) :
    Request :=
  { request with
    params := request.params.set "MAP" (renderer.mapPath project)
    headers := renderer.directHeaders request.headers }

/-- The URL that a request with some parameters goes to. -/
def target (renderer : RendererSettings) (params : Params) : Url :=
  renderer.url.setQuery params.toQuery

end RendererSettings

end MapGate
