import PluginRegistry.Models
import PluginRegistry.Python.Text

namespace PluginRegistry
open Lib

structure ZipEntry where
  name : List String
  content : List UInt8
  deriving DecidableEq

abbrev Blob := List ZipEntry

abbrev Bucket := Table String Blob

structure S3Layout where
  pluginsPrefix : String
  unknownAuthor : String

def RuntimeConfig.s3Layout (cfg : RuntimeConfig) : S3Layout :=
  ⟨cfg.s3PluginsPrefix, cfg.s3UnknownAuthor⟩

def SourceType.text : SourceType → String
  | .gitAuto => "git_auto"
  | .manualUpload => "manual_upload"

def shortTag (sourceType : SourceType) : Option CommitSha → String
  | some commitSha => textPrefix 7 commitSha.text
  | none => sourceType.text

def S3Layout.authorOf (layout : S3Layout) (plugin : Plugin) : String :=
  if plugin.author.isEmpty then layout.unknownAuthor else plugin.author

def buildS3KeyWithLayout (plugin : Plugin) (version : String) (sourceType : SourceType)
    (commitSha : Option CommitSha) (layout : S3Layout) : String :=
  let filename := plugin.pluginKey ++ "-" ++ version ++ "-" ++ shortTag sourceType commitSha ++
    ".zip"
  stripBy (· = '/') layout.pluginsPrefix ++ "/" ++ layout.authorOf plugin ++ "/" ++
    plugin.pluginKey ++ "/" ++ version ++ "/" ++ filename

def buildPublicUrlWithBase (s3Key publicUrl : String) : String :=
  rstripBy (· = '/') publicUrl ++ "/" ++ lstripBy (· = '/') s3Key

end PluginRegistry
