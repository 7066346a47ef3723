import PluginRegistry.Proofs.DownloadCounts
import PluginRegistry.Proofs.FreshServing
